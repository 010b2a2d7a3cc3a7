import ChipEight.Playback.Dictionary
import ChipEight.Request.Body

/-!
# The response to a request

What a report has to look like to be sent: an object with fields of certain types, of which the
error may be missing or null. Numbers and truth values are read as generously as those of a request.
Fields that are not asked for are left out.
-/

namespace ChipEight.Request

/-- The error of a response. -/
structure Response.Failure where
  type : String
  message : String
  step : Int
  address : Int
  opcode : Option Int

/-- A response that can be sent. -/
structure Response where
  status : String
  steps : Int
  frames : Int
  /-- The state of the machine, whatever its fields are. -/
  final : List (Text × Json)
  display : List String
  soundActive : Bool
  error : Option Response.Failure

namespace Response

/-- Reads a field that must be there. -/
def required {α : Type} (fields : List (Text × Json)) (name : String) (read : Json → Option α) :
    Option α :=
  (Json.field? name fields).bind read

/-- Reads a field that may be missing or null. -/
def possible {α : Type} (fields : List (Text × Json)) (name : String) (read : Json → Option α) :
    Option (Option α) :=
  match Json.field? name fields with
  | none => some none
  | some .null => some none
  | some value => (read value).map some

def string? : Json → Option String
  | .string text => Text.toString? text
  | _ => none

def integer? (value : Json) : Option Int :=
  (integerOf value).toOption

def truth? (value : Json) : Option Bool :=
  (truthOf value).toOption

def object? : Json → Option (List (Text × Json))
  | .object fields => some fields
  | _ => none

def strings? : Json → Option (List String)
  | .array items => items.mapM string?
  | _ => none

/-- The error that a value stands for. -/
def Failure.ofJson? : Json → Option Failure
  | .object fields => do
    let type ← required fields "type" string?
    let message ← required fields "message" string?
    let step ← required fields "step" integer?
    let address ← required fields "addr" integer?
    let opcode ← possible fields "opcode" integer?
    return { type, message, step, address, opcode }
  | _ => none

/-- The response that a value stands for, if it can be sent. -/
def ofJson? : Json → Option Response
  | .object fields => do
    let status ← required fields "status" string?
    let steps ← required fields "steps_executed" integer?
    let frames ← required fields "frames_executed" integer?
    let final ← required fields "final_state" object?
    let display ← required fields "display" strings?
    let soundActive ← required fields "sound_active" truth?
    let error ← possible fields "error" Failure.ofJson?
    return { status, steps, frames, final, display, soundActive, error }
  | _ => none

/-- An error as it is sent. -/
def Failure.toJson (failure : Failure) : Json :=
  .ofFields [
    ("type", .ofString failure.type),
    ("message", .ofString failure.message),
    ("step", .integer failure.step),
    ("addr", .integer failure.address),
    ("opcode", .ofOption .integer failure.opcode)]

/-- A response as it is sent. -/
def toJson (response : Response) : Json :=
  .ofFields [
    ("status", .ofString response.status),
    ("steps_executed", .integer response.steps),
    ("frames_executed", .integer response.frames),
    ("final_state", .object response.final),
    ("display", .array (response.display.map .ofString)),
    ("sound_active", .bool response.soundActive),
    ("error", .ofOption Failure.toJson response.error)]

end Response

end ChipEight.Request
