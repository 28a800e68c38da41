import NatsCpp.PayloadLength
import Mathlib.Data.List.TakeWhile

/-!
# Payloads passed as C strings

`publish_string`, `publish_request_string` and `request_string` take a payload
with its length, as `publish`, `publish_request` and `request_sync` do, but
they pass it to nats.c as a C string, of which nats.c takes the bytes before
the first NUL.
-/
namespace NatsCpp.Messaging

/-- The buffer of `std::string(payload).c_str()`. -/
def cString (bytes : List UInt8) : List UInt8 := bytes ++ [0]

/-- The bytes before the first NUL. -/
def untilNul (buffer : List UInt8) : List UInt8 := buffer.takeWhile (· ≠ 0)

@[simp] theorem untilNul_cString (bytes : List UInt8) :
    untilNul (cString bytes) = untilNul bytes := by
  unfold untilNul cString
  induction bytes with
  | nil => rfl
  | cons b bytes ih => simp only [List.cons_append, List.takeWhile_cons, ih]

/-- A byte string is its own C string exactly if it has no NUL. -/
theorem untilNul_eq_iff (bytes : List UInt8) : untilNul bytes = bytes ↔ 0 ∉ bytes := by
  unfold untilNul
  rw [List.takeWhile_eq_self_iff]
  constructor
  · intro hall hmem
    simpa using hall 0 hmem
  · intro hnot b hb
    simp only [ne_eq, decide_not, Bool.not_eq_eq_eq_not, Bool.not_true, decide_eq_false_iff_not]
    exact fun h0 => hnot (h0 ▸ hb)

/-- The native functions that get a payload as a C string, with their other arguments. -/
inductive StringFunction where
  | natsConnectionPublishString (nc : Option ℕ) (subj : String)
  | natsConnectionPublishRequestString (nc : Option ℕ) (subj reply : String)
  | natsConnectionRequestString (nc : Option ℕ) (subj : String) (timeout : Int64)

structure StringCall where
  function : StringFunction
  str : List UInt8

/-- The bytes that nats.c takes. -/
def StringCall.taken (c : StringCall) : List UInt8 := untilNul c.str

/-- What nats.c answers to the last of the calls made. -/
structure StringAnswers where
  texts : ErrorTexts StringCall
  status : List StringCall → Status
  msg : List StringCall → Option ℕ

section Operations

variable (answers : StringAnswers)

/-- Calls nats.c with a C string, throws on an error, and reads the result. -/
def sendString {α : Type} (function : StringFunction) (context : String) (payload : Payload)
    (result : List StringCall → α) : Program StringCall Error α := do
  let calls ← Program.call ⟨function, cString payload.bytes⟩
  throwOnError answers.texts (answers.status calls) context
  pure (result calls)

def publishString (conn : Option ℕ) (subject : String) (payload : Payload) :
    Program StringCall Error Unit :=
  sendString answers (.natsConnectionPublishString conn subject) "natsConnection_PublishString"
    payload fun _ => ()

def publishRequestString (conn : Option ℕ) (subject replyTo : String) (payload : Payload) :
    Program StringCall Error Unit :=
  sendString answers (.natsConnectionPublishRequestString conn subject replyTo)
    "natsConnection_PublishRequestString" payload fun _ => ()

def requestString (conn : Option ℕ) (subject : String) (payload : Payload) (timeout : Int64) :
    Program StringCall Error (Option ℕ) :=
  sendString answers (.natsConnectionRequestString conn subject timeout)
    "natsConnection_RequestString" payload answers.msg

end Operations

/-- The operations that exist in both variants, with their arguments. -/
inductive Paired where
  | publish (conn : Option ℕ) (subject : String)
  | publishRequest (conn : Option ℕ) (subject replyTo : String)
  | request (conn : Option ℕ) (subject : String) (timeout : Int64)

namespace Paired

/-- The binary variant. -/
def binary : Paired → Operation
  | .publish conn subject => .publish conn subject
  | .publishRequest conn subject replyTo => .publishRequest conn subject replyTo
  | .request conn subject timeout => .requestSync conn subject timeout

/-- Runs the string variant to its end. -/
def runString (answers : StringAnswers) (op : Paired) (payload : Payload) :
    Program StringCall Error Unit :=
  match op with
  | .publish conn subject => publishString answers conn subject payload
  | .publishRequest conn subject replyTo => publishRequestString answers conn subject replyTo payload
  | .request conn subject timeout => discard (requestString answers conn subject payload timeout)

/-- What is sent by the binary variant, a payload for each native call. -/
def sentBinary (answers : Answers) (op : Paired) (payload : Payload) : List (List UInt8) :=
  ((op.binary.run answers payload).outcome []).2.map Call.taken

/-- What is sent by the string variant. -/
def sentString (answers : StringAnswers) (op : Paired) (payload : Payload) : List (List UInt8) :=
  ((op.runString answers payload).outcome []).2.map StringCall.taken

variable (op : Paired) (payload : Payload)

theorem sentString_eq (answers : StringAnswers) :
    op.sentString answers payload = [untilNul payload.bytes] := by
  have hcalls : ∃ function, ((op.runString answers payload).outcome []).2 =
      [⟨function, cString payload.bytes⟩] := by
    cases op with
    | publish | publishRequest => exact ⟨_, calls_of_checked answers.texts _ [] answers.status _ _⟩
    | request =>
      exact ⟨_, calls_of_discard _ (calls_of_checked answers.texts _ [] answers.status _ _)⟩
  obtain ⟨function, hcalls⟩ := hcalls
  rw [sentString, hcalls, List.map_singleton, StringCall.taken, untilNul_cString]

theorem sentBinary_eq (answers : Answers) (hsize : payload.size ≤ intMax) :
    op.sentBinary answers payload = [payload.bytes] := by
  have hrun := runCases answers payload op.binary
  rw [sentBinary]
  generalize (op.binary.run answers payload).outcome [] = outcome at hrun
  cases hrun with
  | tooLong hcheck hgt what => exact absurd hgt (UInt64.not_lt.mpr hsize)
  | notInitialized hinit what => cases op <;> simp [binary, Operation.initialized] at hinit
  | called hcheck hinit outcome function hcalls =>
    have hlen := (dataLen_eq_iff function payload).mpr hsize
    rw [hcalls, List.map_singleton, taken_of_dataLen_eq hlen]

end Paired

/-- The binary variants send the payload, the string variants its bytes before the first NUL, so
that they send the same exactly if the payload has no NUL. -/
theorem sentString_spec (strings : StringAnswers) (answers : Answers) (op : Paired)
    (payload : Payload) (hsize : payload.size ≤ intMax) :
    op.sentBinary answers payload = [payload.bytes] ∧
      op.sentString strings payload = [untilNul payload.bytes] ∧
      (op.sentString strings payload = op.sentBinary answers payload ↔ 0 ∉ payload.bytes) := by
  have hbinary := op.sentBinary_eq payload answers hsize
  have hstring := op.sentString_eq payload strings
  refine ⟨hbinary, hstring, ?_⟩
  rw [hbinary, hstring, List.cons.injEq, and_iff_left rfl]
  exact untilNul_eq_iff payload.bytes

/-- An nats.c that accepts every call with a C string. -/
def acceptingStrings : StringAnswers where
  texts := ⟨fun _ => none, fun _ => none⟩
  status _ := .ok
  msg calls := some calls.length

/-- The text `hi`. -/
def textPayload : Payload := ⟨[104, 105], by decide⟩

theorem sentString_text :
    (Paired.publish (some 0) "subject").sentString acceptingStrings textPayload =
      (Paired.publish (some 0) "subject").sentBinary accepting textPayload :=
  (sentString_spec acceptingStrings accepting _ textPayload (by decide)).2.2.mpr (by decide)

/-- A payload of three bytes with a NUL in the middle. -/
def nulPayload : Payload := ⟨[97, 0, 98], by decide⟩

/-- `publish_string` sends one byte of it. -/
theorem sentString_nul : nulPayload.size ≤ intMax ∧
    (Paired.publish (some 0) "subject").sentString acceptingStrings nulPayload = [[97]] ∧
    (Paired.publish (some 0) "subject").sentBinary accepting nulPayload = [[97, 0, 98]] := by
  decide

end NatsCpp.Messaging
