import Courier.Ident.Json
import Courier.Proofs.Base64UrlSound
import Courier.Proofs.JsonSound

/-!
# Every identity has one text

A text is read as a content identifier exactly if it is the text of that
identifier, and a JSON string is read as an identity exactly if it is the string
of that identity. So an identity is told apart from any other by its text, and
by its string, and neither has a second spelling (`texts_canonical`).
-/

namespace Courier

open Base64Url (encode Spells)
open Json (Doc Value)

/-! ## Content identifiers -/

theorem Cid.parse_cons {s : String} {r : List Char} (hs : s.toList = 'u' :: r) :
    Cid.parse s = match Base64Url.decode (Bytes.ofText (String.ofList r)) with
      | .error e => .error (.encoding e)
      | .ok [] => .error .empty
      | .ok b => .ok ⟨b⟩ := by
  unfold Cid.parse
  rw [hs, Bytes.ofText, String.toList_ofList]
  rfl

theorem Cid.toList_text (c : Cid) : c.text.toList = 'u' :: (encode c.bytes).toList := by
  unfold Cid.text
  rw [String.toList_append]
  rfl

theorem Cid.parse_text {c : Cid} (h : c.bytes ≠ []) : Cid.parse c.text = .ok c := by
  rw [parse_cons (toList_text c), String.ofList_toList, Base64Url.decode_ofText_encode]
  obtain ⟨b⟩ := c
  cases b with
  | nil => exact absurd rfl h
  | cons a b => rfl

theorem Cid.of_parse {s : String} {c : Cid} (h : Cid.parse s = .ok c) :
    c.bytes ≠ [] ∧ s = c.text := by
  by_cases hs : ∃ r, s.toList = 'u' :: r
  · obtain ⟨r, hr⟩ := hs
    rw [parse_cons hr] at h
    split at h
    · cases h
    · cases h
    · next b hb hd =>
      cases h
      refine ⟨fun hnil => hb hnil, ?_⟩
      apply String.toList_inj.mp
      rw [hr, toList_text, ← Base64Url.decode_ofText_eq_ok_iff.mp hd, String.toList_ofList]
  · unfold Cid.parse at h
    split at h
    · next r hr => exact absurd ⟨r, hr⟩ hs
    · cases h

theorem Cid.parse_eq_ok_iff {s : String} {c : Cid} :
    Cid.parse s = .ok c ↔ c.bytes ≠ [] ∧ s = c.text := by
  constructor
  · exact of_parse
  · intro ⟨hc, hs⟩
    rw [hs, parse_text hc]

/-! ## JSON strings -/

theorem readId_eq_ok_iff {d : Doc} {b : Bytes} : readId d = .ok b ↔ d.string = .ok (encode b) := by
  unfold readId
  cases d.string with
  | error f => exact ⟨nofun, nofun⟩
  | ok s =>
    have hdecode := Base64Url.decode_ofText_eq_ok_iff (s := s) (b := b)
    rw [Except.ok.injEq, ← hdecode]
    cases hd : Base64Url.decode (Bytes.ofText s) with
    | error e => simp [hd, bind, Except.bind, throw, throwThe, MonadExceptOf.throw]
    | ok b' => simp [hd, bind, Except.bind, pure, Except.pure]

theorem read_string_iff {s : String} {b : Bytes} :
    Json.read readId (Value.text s).print = .ok b ↔ s = encode b := by
  rw [Json.read_written (.text s), readId_eq_ok_iff]
  show Except.ok s = .ok (encode b) ↔ _
  rw [Except.ok.injEq]

/-- A text is read as a content identifier exactly if that has an octet and the text is its text:
`u` and then the symbols that spell its octets. A JSON string is read as an identity exactly if it is
that identity's string, the symbols alone, however the string is written in the JSON text. -/
theorem texts_canonical :
    (∀ (s : String) (c : Cid), Cid.parse s = .ok c ↔ c.bytes ≠ [] ∧ s = c.text) ∧
    (∀ (r : String) (c : Cid), "u" ++ r = c.text ↔ Spells r c.bytes) ∧
    (∀ (s : String) (c : Cid), Json.read readId (Value.text s).print = .ok c.bytes ↔
      .text s = c.toJson) ∧
    (∀ (s : String) (p : ProviderId), Json.read readId (Value.text s).print = .ok p.bytes ↔
      .text s = p.toJson) ∧
    (∀ (s : String) (c : Cid), .text s = c.toJson ↔ Spells s c.bytes) ∧
    (∀ (t : String) (b : Bytes), Json.read readId t = .ok b ↔
      Json.read Doc.string t = .ok (encode b)) := by
  have htext : ∀ (s : String) (b : Bytes), Value.text s = .text (encode b) ↔ s = encode b := by
    intro s b
    rw [Value.text.injEq]
  refine ⟨fun s c => Cid.parse_eq_ok_iff, ?_, ?_, ?_, ?_, ?_⟩
  · intro r c
    rw [Base64Url.spells_iff, ← String.toList_inj, Cid.toList_text, String.toList_append]
    show 'u' :: r.toList = _ ↔ _
    rw [List.cons.injEq, String.toList_inj]
    exact and_iff_right rfl
  · intro s c
    exact read_string_iff.trans (htext s c.bytes).symm
  · intro s p
    exact read_string_iff.trans (htext s p.bytes).symm
  · intro s c
    exact (htext s c.bytes).trans Base64Url.spells_iff.symm
  · intro t b
    rw [Json.read_eq_ok_iff, Json.read_eq_ok_iff, readId_eq_ok_iff]

/-- A bit that is dropped has to be zero, a length may not leave one symbol, and nothing fills up
the last group. -/
example :
    Cid.parse "uAXESIA" = .ok ⟨[0x01, 0x71, 0x12, 0x20]⟩ ∧
      Cid.parse "uAXESIB" = .error (.encoding (.lastSymbol 66 5)) ∧
      Cid.parse "uAXESI" = .error (.encoding (.length 5)) ∧
      Cid.parse "uAXESIA==" = .error (.encoding .padding) := by
  decide

end Courier
