import StackLang.Proofs.Text.Decoding
import StackLang.Yaml.Token

/-!
# Reading octets

The octets of a text are read as its characters, piece by piece.  No text has octets that begin
like those of UTF-16, so that only a mark at the front could be lost (`signsOf_encode`), and a text
of allowed characters comes to the scanner as it is (`Scanner.ofOctets_encode`).
-/

set_option autoImplicit false

namespace StackLang.Yaml

open Text (decodeHead decodeHead_of_encodeChar encode)

variable {ch : Char} {text : List Char} {a : UInt8} {octets more : List UInt8}

/-- A character with the number of octets that encode it. -/
def Sign.ofChar (c : Char) : Sign := ⟨some c, (String.utf8EncodeChar c).length⟩

theorem utf8Signs_eq_drop (k : Nat) : utf8Signs k octets = utf8Signs 0 (octets.drop k) := by
  induction octets generalizing k with
  | nil => rw [List.drop_nil, utf8Signs, utf8Signs]
  | cons a octets ih =>
    cases k with
    | zero => rfl
    | succ k => rw [utf8Signs, ih, List.drop_succ_cons]

/-- A character at the front is read. -/
theorem utf8Signs_encodeChar_append (ch : Char) (octets : List UInt8) :
    utf8Signs 0 (String.utf8EncodeChar ch ++ octets) = .ofChar ch :: utf8Signs 0 octets := by
  obtain ⟨a, more, h⟩ := Text.exists_encodeChar ch
  have hread : (a < 0x80 || 0 < more.length) = true := by
    cases more with
    | nil => simp [(Text.decodeOne_eq_iff.2 h).1]
    | cons b more => simp
  rw [h, List.cons_append, utf8Signs]
  simp only [decodeHead_of_encodeChar h, hread, if_true]
  rw [utf8Signs_eq_drop, List.drop_left, Sign.ofChar, h, List.length_cons]

theorem utf8Signs_flatMap_encodeChar (text : List Char) :
    utf8Signs 0 (text.flatMap String.utf8EncodeChar) = text.map .ofChar := by
  induction text with
  | nil => rfl
  | cons c text ih => rw [List.flatMap_cons, utf8Signs_encodeChar_append, ih, List.map_cons]

/-- The first octet of a character is below those of the marks of UTF-16. -/
theorem lead_lt (h : String.utf8EncodeChar ch = a :: more) : a.toNat < 0xF5 := by
  rcases Text.encodeChar_cases ch with ⟨hv, h'⟩ | ⟨hv, h'⟩ | ⟨hv, h'⟩ | ⟨hv, h'⟩ <;>
  · have hlead := (List.cons.inj (h.symm.trans h')).1
    rw [hlead, UInt8.toNat_ofNat']
    omega

/-- The octets of a text that does not start with a byte order mark are read as UTF-8. -/
theorem signsOf_encode (hmark : ∀ c ∈ text.head?, isMark c = false) :
    signsOf (encode (String.ofList text)) = (0, text.map .ofChar) := by
  rw [Text.encode_eq_flatMap, String.toList_ofList, ← utf8Signs_flatMap_encodeChar]
  cases text with
  | nil => rfl
  | cons c text =>
    obtain ⟨a, more, h⟩ := Text.exists_encodeChar c
    have hlead := lead_lt h
    have hhead : decodeHead a (more ++ text.flatMap String.utf8EncodeChar) = (c, more.length) :=
      decodeHead_of_encodeChar h
    rw [List.flatMap_cons, h, List.cons_append]
    generalize more ++ text.flatMap String.utf8EncodeChar = octets at hhead
    unfold signsOf
    split
    · rename_i heq
      cases heq
      exact absurd hlead (by decide)
    · rename_i heq
      cases heq
      exact absurd hlead (by decide)
    · rename_i rest heq
      cases heq
      -- three octets that are the mark, which is not the first character
      have hthree : String.utf8EncodeChar (Char.ofNat 0xFEFF) = [0xEF, 0xBB, 0xBF] := by decide
      have hfront : decodeHead 0xEF ([0xBB, 0xBF] ++ rest) = (Char.ofNat 0xFEFF, 2) :=
        decodeHead_of_encodeChar hthree
      rw [List.cons_append, List.cons_append, List.nil_append, hhead] at hfront
      obtain ⟨rfl, -⟩ := Prod.mk.inj hfront
      exact absurd (hmark _ rfl) (by decide)
    · rfl

theorem readableFrom_eq (h : ∀ c ∈ text, isAllowed c = true) (room : Nat) (piece : List Char) :
    readableFrom room piece (text.map .ofChar) = (piece.reverse ++ text, false) := by
  induction text generalizing room piece with
  | nil => rw [List.map_nil, readableFrom, List.append_nil]
  | cons c text ih =>
    obtain ⟨hc, htext⟩ := List.forall_mem_cons.1 h
    have hchar : (Sign.ofChar c).char?.filter isAllowed = some c := Option.filter_some_pos hc
    rw [List.map_cons, readableFrom, hchar]
    simp only [ih htext]
    split <;> simp

/-- A text of allowed characters comes to the scanner as it is. -/
theorem Scanner.ofOctets_encode (hallowed : ∀ c ∈ text, isAllowed c = true)
    (hmark : ∀ c ∈ text.head?, isMark c = false) :
    Scanner.ofOctets (encode (String.ofList text)) =
      { at_ := { rest := text }, isCut := false, window := 0 } := by
  rw [ofOctets, signsOf_encode hmark]
  simp only [readableFrom_eq hallowed]
  rfl

end StackLang.Yaml
