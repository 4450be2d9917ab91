import StackLang.Text.Utf8

/-!
# The octets of a text

`Text.encode` takes the octets of a text out of an array.  Here they are a function of its
characters: one character after the other (`encode_eq_flatMap`), and one octet each where all
characters are ASCII (`encode_of_ascii`).
-/

set_option autoImplicit false

namespace StackLang.Text

/-- The list of an array of octets is read from its front to its end. -/
theorem toList_loop (bs : ByteArray) (i : Nat) (acc : List UInt8) :
    ByteArray.toList.loop bs i acc = acc.reverse ++ bs.data.toList.drop i := by
  fun_induction ByteArray.toList.loop bs i acc with
  | case1 i acc hlt ih =>
    have hlen : i < bs.data.toList.length := hlt
    have hget : bs.get! i = bs.data.toList[i] := getElem!_pos bs.data i hlt
    rw [ih, List.reverse_cons, List.append_assoc, List.singleton_append, hget,
      List.getElem_cons_drop]
  | case2 i acc hge =>
    have hlen : bs.data.toList.length ≤ i := Nat.le_of_not_lt hge
    rw [List.drop_eq_nil_of_le hlen, List.append_nil]

/-- The octets of a text are those of its characters, one after the other. -/
theorem encode_eq_flatMap (s : String) : encode s = s.toList.flatMap String.utf8EncodeChar := by
  have hbytes : s.toByteArray = s.toList.utf8Encode := by
    rw [← String.toByteArray_ofList, String.ofList_toList]
  rw [encode, String.toUTF8_eq_toByteArray, ByteArray.toList, toList_loop, hbytes, List.utf8Encode,
    List.toList_data_toByteArray]
  rfl

theorem encode_append (s t : String) : encode (s ++ t) = encode s ++ encode t := by
  rw [encode_eq_flatMap, encode_eq_flatMap, encode_eq_flatMap, String.toList_append,
    List.flatMap_append]

theorem length_encode (s : String) : (encode s).length = s.utf8ByteSize := by
  have hbytes : encode s = s.toByteArray.data.toList := by
    rw [encode, String.toUTF8_eq_toByteArray, ByteArray.toList, toList_loop]
    rfl
  rw [hbytes]
  rfl

/-- All characters of a text are ASCII. -/
def Ascii (s : String) : Prop := ∀ c ∈ s.toList, c.toNat < 128

instance (s : String) : Decidable (Ascii s) :=
  List.decidableBAll (fun c : Char => c.toNat < 128) s.toList

theorem Ascii.append {s t : String} (hs : Ascii s) (ht : Ascii t) : Ascii (s ++ t) := by
  intro c hc
  rw [String.toList_append, List.mem_append] at hc
  exact hc.elim (hs c) (ht c)

theorem Ascii.left {s t : String} (h : Ascii (s ++ t)) : Ascii s := by
  intro c hc
  exact h c (by rw [String.toList_append]; exact List.mem_append_left _ hc)

/-- The octet of an ASCII character. -/
def octet (c : Char) : UInt8 := UInt8.ofNat c.toNat

/-- ASCII characters take one octet each. -/
theorem encode_of_ascii {s : String} (h : ∀ c ∈ s.toList, c.toNat < 128) :
    encode s = s.toList.map octet := by
  rw [encode_eq_flatMap]
  generalize s.toList = cs at h
  induction cs with
  | nil => rfl
  | cons c cs ih =>
    have hc : c.val.toNat ≤ 127 := Nat.le_of_lt_succ (h c List.mem_cons_self)
    rw [List.flatMap_cons, ih fun c' hc' => h c' (List.mem_cons_of_mem c hc'),
      String.utf8EncodeChar, if_pos hc]
    rfl

end StackLang.Text
