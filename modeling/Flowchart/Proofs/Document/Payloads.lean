import Flowchart.Document.Codec
import Flowchart.Proofs.Json.Encodings

/-!
# Payloads that hold no flowchart

* `Payload.IsEncoded`: bytes that are those of code points.
* `Document.read_answers_iff`: the payloads that are read as a flowchart, or refused with a report.
-/

namespace Flowchart

/-- The failure is reported as one of reading or writing. -/
def Failure.IsSerialization (e : Failure) : Prop :=
  ∃ message details, e = .reported (.of .serialization message details)

theorem PayloadError.isSerialization_iff (e : PayloadError) : e.failure.IsSerialization ↔ e ≠ .undecodable := by
  cases e with
  | undecodable => exact iff_of_false nofun (fun apart => apart rfl)
  | notJson mistake text => exact iff_of_true ⟨_, _, rfl⟩ nofun
  | notObject => exact iff_of_true ⟨_, _, rfl⟩ nofun
  | mismatch issues => exact iff_of_true ⟨_, _, rfl⟩ nofun

/-- The bytes are those of code points, in the encoding that they seem to have. Only bytes have an encoding. -/
def Payload.IsEncoded : Payload → Prop
  | .bytes given => (Json.Encoding.detect given).1.Encodes (given.drop (Json.Encoding.detect given).2)
  | .text _ | .value _ => True

namespace Document

theorem ofJson_ne_undecodable (v : Json) : ofJson v ≠ .error .undecodable := by
  intro failed
  unfold ofJson at failed
  split at failed
  next => split at failed <;> cases failed
  next => cases failed

theorem isSome_decodeBytes?_iff (bytes : List UInt8) :
    (Json.decodeBytes? bytes).isSome = true ↔ (Payload.bytes bytes).IsEncoded :=
  Json.Encoding.decode_isSome_iff _ _

theorem read_eq_undecodable_iff (payload : Payload) :
    read payload = .error .undecodable ↔ ¬payload.IsEncoded := by
  cases payload with
  | value v => exact iff_of_false (ofJson_ne_undecodable v) (fun bare => bare trivial)
  | text text =>
    refine iff_of_false ?_ (fun bare => bare trivial)
    intro failed
    simp only [read] at failed
    split at failed
    next v _ => exact ofJson_ne_undecodable v failed
    next => cases failed
  | bytes bytes =>
    rw [← isSome_decodeBytes?_iff]
    simp only [read]
    split
    next none => exact iff_of_true rfl (by rw [none]; nofun)
    next chars decoded =>
      refine iff_of_false ?_ (fun bare => bare (by rw [decoded]; rfl))
      intro failed
      split at failed
      next v _ => exact ofJson_ne_undecodable v failed
      next => cases failed

example : read (.bytes [0xFF]) = .error .undecodable := rfl

end Document

end Flowchart
