import ChipEight.Playback.Session
import ChipEight.Request.Body
import ChipEight.Text.Base64

/-!
# Answering a request

A request with a well-formed body is refused if its program image is too large or unreadable or one
of its keys does not exist; else the program is played and the report is the answer. The length of
the encoded image is looked at before it is decoded, which bounds the work; that bound alone would
let one byte too many through.
-/

namespace ChipEight.Request

/-- Why a well-formed request is refused. -/
inductive Refusal where
  | imageTooLarge
  | imageUnreadable
  | invalidKey (key : Int)
  deriving DecidableEq, Repr

def Refusal.message : Refusal → String
  | imageTooLarge => s!"ROM size exceeds limit of {Memory.programLimit} bytes"
  | imageUnreadable => "ROM is not valid base64"
  | invalidKey key => s!"Invalid key: {key}"

/-- The answer to a request. -/
inductive Answer where
  /-- The program was played. -/
  | report (report : Playback.Report)
  /-- The request was refused. -/
  | refused (refusal : Refusal)
  /-- The body is not well formed. -/
  | malformed (issues : List Issue)
  /-- The playback was broken off by a misuse. -/
  | brokenOff (misuse : Misuse)
  deriving DecidableEq, Repr

/-- The greatest length of an encoded image that is decoded at all. -/
def encodedLimit : Nat :=
  (Memory.programLimit + 2) / 3 * 4

/-- The bytes of an encoded image. -/
def decodeImage (text : Text) : Except Refusal (List UInt8) :=
  if encodedLimit < text.length then
    .error .imageTooLarge
  else
    match (Text.chars? text).bind Text.Base64.decode with
    | none => .error .imageUnreadable
    | some image =>
      if Memory.programLimit < image.length then .error .imageTooLarge else .ok image

def isKey (key : Int) : Bool :=
  0 ≤ key ∧ key ≤ 15

/-- Refuses the first number that names no key. -/
def checkKeys (keys : List Int) : Except Refusal Unit :=
  match keys.find? fun key => !isKey key with
  | some key => .error (.invalidKey key)
  | none => .ok ()

/-- What is to be played for a request. -/
def Body.program (body : Body) : Except Refusal (List UInt8 × Playback.Options) := do
  let image ← decodeImage body.image
  let options := body.options.getD {}
  checkKeys options.keys
  return (image, options)

/-- Answers a well-formed request. Where no seed is given the random bytes are up to `chance`. -/
def Body.answer (chance : Random.Twister) (body : Body) : Answer :=
  match body.program with
  | .error refusal => .refused refusal
  | .ok (image, options) =>
    match (Playback.run chance image options).report with
    | .ok report => .report report
    | .error misuse => .brokenOff misuse

def answer (chance : Random.Twister) (body : Json) : Answer :=
  match Body.ofJson body with
  | .ok body => body.answer chance
  | .error issues => .malformed issues

/-- The state of the service, for whoever asks after its health. -/
def health : String := "ok"

end ChipEight.Request
