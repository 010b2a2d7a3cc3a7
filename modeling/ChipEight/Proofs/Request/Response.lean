import ChipEight.Request.Response

/-!
# Reports that can be sent

Every report has the form of a response, provided that the message of its fault is a string: that is
the one part of a report that might hold something which cannot be sent.

* **`field?_ofFields`** — the fields of an object are found by their names.
* **`Failure.ofJson?_toJson`**, **`ofJson?_toJson`** — an account of a fault, and a report, are read
  as what they are.
-/

namespace ChipEight

theorem Text.ofString_inj {s s' : String} : Text.ofString s = Text.ofString s' ↔ s = s' := by
  constructor
  · intro h
    have hread : toString? (ofString s) = toString? (ofString s') := by rw [h]
    rw [toString?_ofString, toString?_ofString] at hread
    exact Option.some.inj hread
  · intro h
    rw [h]

/-- A field is looked for from the end, as the last one of a name counts. -/
theorem Json.field?_ofFields (name : String) (fields : List (String × Json)) :
    field? name (fields.map fun entry => (Text.ofString entry.1, entry.2)) =
      (fields.reverse.find? fun entry => entry.1 == name).map (·.2) := by
  have hname : ∀ entry : String × Json,
      (Text.ofString entry.1 == Text.ofString name) = (entry.1 == name) := by
    intro entry
    rw [Bool.eq_iff_iff, beq_iff_eq, beq_iff_eq]
    exact Text.ofString_inj
  rw [field?, ← List.map_reverse, List.find?_map, Option.map_map]
  simp only [Function.comp_def, hname]

namespace Request.Response

theorem string?_ofString (s : String) : string? (.ofString s) = some s :=
  Text.toString?_ofString s

theorem strings?_map_ofString (strings : List String) :
    strings? (.array (strings.map .ofString)) = some strings := by
  show (strings.map Json.ofString).mapM string? = some strings
  induction strings with
  | nil => rfl
  | cons s strings ih => simp [string?_ofString, ih]

/-- A field that is there and not null is read, and only then may it be at fault. -/
theorem possible_of_some {α : Type} {fields : List (Text × Json)} {name : String} {value : Json}
    (hfield : Json.field? name fields = some value) (hvalue : value ≠ .null)
    (read : Json → Option α) :
    possible fields name read = (read value).map some := by
  unfold possible
  rw [hfield]
  cases value with
  | null => exact absurd rfl hvalue
  | _ => rfl

/-- The error that an account of a fault is sent as, where its message is a string. -/
def Failure.ofReport (report : Fault.Report) (message : String) : Failure where
  type := report.kind.name
  message := message
  step := report.step
  address := report.address
  opcode := report.opcode

/-- The account of a fault has the form of an error, with the opcode or without. -/
theorem Failure.ofJson?_toJson {report : Fault.Report} {message : String}
    (hmessage : Text.toString? report.message = some message) :
    Failure.ofJson? report.toJson = some (.ofReport report message) := by
  have hstring : string? (.string report.message) = some message := hmessage
  unfold Failure.ofJson? Fault.Report.toJson Json.ofFields
  simp only [required, possible, Json.field?_ofFields]
  cases hopcode : report.opcode with
  | none => simp [string?_ofString, hstring, integer?, integerOf, Json.ofOption, Except.toOption,
      ofReport, hopcode]
  | some word => simp [string?_ofString, hstring, integer?, integerOf, Json.ofOption,
      Except.toOption, ofReport, hopcode]

/-- The response that a report is sent as. -/
def ofReport (report : Playback.Report) (error : Option Failure) : Response where
  status := report.status
  steps := report.steps
  frames := report.frames
  final := report.final.fields.map fun entry => (Text.ofString entry.1, entry.2)
  display := report.display
  soundActive := report.soundActive
  error := error

/-- A report without a fault can always be sent. -/
theorem ofJson?_of_ok {report : Playback.Report} (h : report.error? = none) :
    ofJson? report.toJson = some (ofReport report none) := by
  unfold ofJson? Playback.Report.toJson
  simp only [h, List.append_nil, Json.ofFields, required, possible, Json.field?_ofFields]
  simp [string?_ofString, strings?_map_ofString, integer?, integerOf, truth?, truthOf, object?,
    Except.toOption, ofReport]

/-- A report with a fault can be sent, if the fault's message can. -/
theorem ofJson?_of_fault {report : Playback.Report} {fault : Fault.Report} {message : String}
    (h : report.error? = some fault) (hmessage : Text.toString? fault.message = some message) :
    ofJson? report.toJson = some (ofReport report (some (.ofReport fault message))) := by
  have hread := Failure.ofJson?_toJson hmessage
  have hvalue : fault.toJson ≠ .null := nofun
  unfold ofJson? Playback.Report.toJson
  simp only [h, Json.ofFields, required]
  rw [possible_of_some (by rw [Json.field?_ofFields]; rfl) hvalue]
  simp only [Json.field?_ofFields, hread]
  simp [string?_ofString, strings?_map_ofString, integer?, integerOf, truth?, truthOf, object?,
    Except.toOption, ofReport]

end Request.Response

end ChipEight
