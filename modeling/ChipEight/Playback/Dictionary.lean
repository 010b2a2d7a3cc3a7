import ChipEight.Json.Basic
import ChipEight.Playback.Report

/-!
# Reports as dictionaries

A report as it is handed to the outside: as an object whose fields have names. The fault that ended
a playback has a field only if there is one.
-/

namespace ChipEight

/-- An account of a fault, field by field. -/
def Fault.Report.toJson (report : Fault.Report) : Json :=
  .ofFields [
    ("type", .ofString report.kind.name),
    ("message", .string report.message),
    ("step", .integer report.step),
    ("addr", .integer report.address),
    ("opcode", .ofOption .integer report.opcode)]

namespace Playback

/-- The state of a machine, field by field. -/
def Summary.fields (summary : Summary) : List (String × Json) := [
  ("v", .array (summary.v.map fun byte => .integer byte.toNat)),
  ("i", .integer summary.i),
  ("pc", .integer summary.pc),
  ("sp", .integer summary.sp),
  ("stack", .array (summary.stack.map fun address => .integer address.toNat)),
  ("delay_timer", .integer summary.delay),
  ("sound_timer", .integer summary.sound),
  ("awaiting_key", .bool summary.awaitingKey),
  ("cycles", .integer summary.cycles),
  ("dirty", .bool summary.dirty)]

/-- A report, field by field. -/
def Report.toJson (report : Report) : Json :=
  .ofFields ([
    ("status", .ofString report.status),
    ("steps_executed", .integer report.steps),
    ("frames_executed", .integer report.frames),
    ("final_state", .ofFields report.final.fields),
    ("display", .array (report.display.map .ofString)),
    ("sound_active", .bool report.soundActive)] ++
    match report.error? with
    | some fault => [("error", fault.toJson)]
    | none => [])

end Playback

end ChipEight
