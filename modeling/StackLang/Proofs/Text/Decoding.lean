import StackLang.Proofs.Text.Octets

/-!
# What octets stand for

`Text.Reads octets cs` says what it is to read octets as UTF-8, without an algorithm: where the
encoding of a character stands it is read as that character, and an octet where none stands is read
as U+FFFD.  Every sequence of octets reads as exactly one sequence of characters, which is the one
that `Text.decode` gives (`reads_iff`), and what encodes a text reads as that text
(`decode_encode`).
-/

set_option autoImplicit false

namespace StackLang.Text

/-- The octets read as these characters. -/
inductive Reads : List UInt8 → List Char → Prop where
  | nil : Reads [] []
  /-- The encoding of a character is read as the character. -/
  | char {ch : Char} {octets : List UInt8} {cs : List Char} (h : Reads octets cs) :
    Reads (String.utf8EncodeChar ch ++ octets) (ch :: cs)
  /-- An octet at which no encoding of a character stands is read as U+FFFD. -/
  | invalid {a : UInt8} {octets : List UInt8} {cs : List Char}
    (ha : ∀ ch, ¬ String.utf8EncodeChar ch <+: a :: octets) (h : Reads octets cs) :
    Reads (a :: octets) (replacement :: cs)

variable {ch : Char} {a b c d : UInt8} {n : Nat} {octets more : List UInt8} {cs : List Char}

/-! ## Single characters

For each length, the octets that are decoded are those that encode the character. -/

theorem ofNat_eq_iff (h : n.isValidChar) : Char.ofNat n = ch ↔ n = ch.toNat := by
  constructor
  · rintro rfl
    rw [Char.ofNat, dif_pos h]
    rfl
  · rintro rfl
    exact Char.ofNat_toNat ch

theorem ofNat_eq_octet_iff (h : n < 256) : UInt8.ofNat n = a ↔ a.toNat = n := by
  rw [← UInt8.toNat_inj, UInt8.toNat_ofNat', Nat.mod_eq_of_lt h, eq_comm]

/-- The octets of a character, by their number. -/
theorem encodeChar_cases (ch : Char) :
    ch.toNat ≤ 0x7F ∧ String.utf8EncodeChar ch = [UInt8.ofNat ch.toNat] ∨
    (0x7F < ch.toNat ∧ ch.toNat ≤ 0x7FF) ∧ String.utf8EncodeChar ch =
      [UInt8.ofNat (ch.toNat / 64 + 192), UInt8.ofNat (ch.toNat % 64 + 128)] ∨
    (0x7FF < ch.toNat ∧ ch.toNat ≤ 0xFFFF ∧ (ch.toNat < 0xD800 ∨ 0xDFFF < ch.toNat)) ∧
      String.utf8EncodeChar ch =
        [UInt8.ofNat (ch.toNat / 4096 + 224), UInt8.ofNat (ch.toNat / 64 % 64 + 128),
          UInt8.ofNat (ch.toNat % 64 + 128)] ∨
    (0xFFFF < ch.toNat ∧ ch.toNat < 0x110000) ∧ String.utf8EncodeChar ch =
      [UInt8.ofNat (ch.toNat / 262144 + 240), UInt8.ofNat (ch.toNat / 4096 % 64 + 128),
        UInt8.ofNat (ch.toNat / 64 % 64 + 128), UInt8.ofNat (ch.toNat % 64 + 128)] := by
  have hvalid : ch.toNat < 0xD800 ∨ 0xDFFF < ch.toNat ∧ ch.toNat < 0x110000 := ch.valid
  have hval : ch.val.toNat = ch.toNat := rfl
  rw [String.utf8EncodeChar, hval]
  generalize ch.toNat = v at hvalid
  split
  · exact .inl ⟨by omega, rfl⟩
  · split
    · rw [Nat.mod_eq_of_lt (a := v / 64) (by omega)]
      exact .inr (.inl ⟨by omega, rfl⟩)
    · split
      · rw [Nat.mod_eq_of_lt (a := v / 4096) (by omega)]
        exact .inr (.inr (.inl ⟨by omega, rfl⟩))
      · rw [Nat.mod_eq_of_lt (a := v / 262144) (by omega)]
        exact .inr (.inr (.inr ⟨by omega, rfl⟩))

theorem decodeOne_eq_iff :
    a < 0x80 ∧ Char.ofNat a.toNat = ch ↔ String.utf8EncodeChar ch = [a] := by
  simp only [UInt8.lt_iff_toNat_lt, UInt8.reduceToNat]
  rw [and_congr_right fun h => ofNat_eq_iff (.inl (by omega))]
  rcases encodeChar_cases ch with ⟨hv, h⟩ | ⟨hv, h⟩ | ⟨hv, h⟩ | ⟨hv, h⟩
  case inl =>
    rw [h, List.singleton_inj, ofNat_eq_octet_iff (by omega)]
    omega
  all_goals
    simp only [h, List.cons.injEq, reduceCtorEq, and_false, iff_false]
    omega

theorem decodeTwo?_eq_some_iff : decodeTwo? a b = some ch ↔ String.utf8EncodeChar ch = [a, b] := by
  rw [decodeTwo?, Option.ite_none_right_eq_some, Option.some_inj]
  simp only [isContinuation, Bool.and_eq_true, decide_eq_true_eq, UInt8.le_iff_toNat_le,
    UInt8.reduceToNat, payload]
  rw [and_congr_right fun h => ofNat_eq_iff (.inl (by omega))]
  rcases encodeChar_cases ch with ⟨hv, h⟩ | ⟨hv, h⟩ | ⟨hv, h⟩ | ⟨hv, h⟩
  case inr.inl =>
    simp only [h, List.cons.injEq, and_true]
    rw [ofNat_eq_octet_iff (by omega), ofNat_eq_octet_iff (by omega)]
    omega
  all_goals
    simp only [h, List.cons.injEq, reduceCtorEq, and_false, iff_false]
    omega

theorem decodeThree?_eq_some_iff :
    decodeThree? a b c = some ch ↔ String.utf8EncodeChar ch = [a, b, c] := by
  have ha : ∀ x : UInt8, a = x ↔ a.toNat = x.toNat := fun x => UInt8.toNat_inj.symm
  rw [decodeThree?, Option.ite_none_right_eq_some, Option.some_inj]
  simp only [isContinuation, Bool.and_eq_true, decide_eq_true_eq, Bool.not_eq_true',
    Bool.and_eq_false_imp, beq_iff_eq, decide_eq_false_iff_not, UInt8.lt_iff_toNat_lt, gt_iff_lt,
    UInt8.le_iff_toNat_le, ha, UInt8.reduceToNat, payload]
  rw [and_congr_right fun h => ofNat_eq_iff (by unfold Nat.isValidChar; omega)]
  rcases encodeChar_cases ch with ⟨hv, h⟩ | ⟨hv, h⟩ | ⟨hv, h⟩ | ⟨hv, h⟩
  case inr.inr.inl =>
    simp only [h, List.cons.injEq, and_true]
    rw [ofNat_eq_octet_iff (by omega), ofNat_eq_octet_iff (by omega), ofNat_eq_octet_iff (by omega)]
    omega
  all_goals
    simp only [h, List.cons.injEq, reduceCtorEq, and_false, iff_false]
    omega

theorem decodeFour?_eq_some_iff :
    decodeFour? a b c d = some ch ↔ String.utf8EncodeChar ch = [a, b, c, d] := by
  have ha : ∀ x : UInt8, a = x ↔ a.toNat = x.toNat := fun x => UInt8.toNat_inj.symm
  rw [decodeFour?, Option.ite_none_right_eq_some, Option.some_inj]
  simp only [isContinuation, Bool.and_eq_true, decide_eq_true_eq, Bool.not_eq_true',
    Bool.and_eq_false_imp, beq_iff_eq, decide_eq_false_iff_not, UInt8.lt_iff_toNat_lt, gt_iff_lt,
    UInt8.le_iff_toNat_le, ha, UInt8.reduceToNat, payload]
  rw [and_congr_right fun h => ofNat_eq_iff (by unfold Nat.isValidChar; omega)]
  rcases encodeChar_cases ch with ⟨hv, h⟩ | ⟨hv, h⟩ | ⟨hv, h⟩ | ⟨hv, h⟩
  case inr.inr.inr =>
    simp only [h, List.cons.injEq, and_true]
    rw [ofNat_eq_octet_iff (by omega), ofNat_eq_octet_iff (by omega),
      ofNat_eq_octet_iff (by omega), ofNat_eq_octet_iff (by omega)]
    omega
  all_goals
    simp only [h, List.cons.injEq, reduceCtorEq, and_false, iff_false]
    omega

/-! ## The character at the front -/

/-- The first octet of a character tells how many follow. -/
theorem length_of_encodeChar (h : String.utf8EncodeChar ch = a :: more) :
    more.length = if a.toNat < 128 then 0 else if a.toNat < 224 then 1 else
      if a.toNat < 240 then 2 else 3 := by
  rcases encodeChar_cases ch with ⟨hv, h'⟩ | ⟨hv, h'⟩ | ⟨hv, h'⟩ | ⟨hv, h'⟩
  all_goals
    rw [h'] at h
    obtain ⟨ha, rfl⟩ := List.cons.inj h
    rw [ofNat_eq_octet_iff (by omega)] at ha
  · rw [if_pos (by omega)]; rfl
  · rw [if_neg (by omega), if_pos (by omega)]; rfl
  · rw [if_neg (by omega), if_neg (by omega), if_pos (by omega)]; rfl
  · rw [if_neg (by omega), if_neg (by omega), if_neg (by omega)]; rfl

/-- Characters that start with the same octet have the same number of octets. -/
theorem length_eq_of_encodeChar {ch' : Char} {more' : List UInt8}
    (h : String.utf8EncodeChar ch = a :: more) (h' : String.utf8EncodeChar ch' = a :: more') :
    more.length = more'.length :=
  (length_of_encodeChar h).trans (length_of_encodeChar h').symm

/-- An octet below 128 is a character of its own. -/
theorem not_ascii_of_encodeChar (h : String.utf8EncodeChar ch = a :: b :: more) : ¬ a < 0x80 :=
  fun ha => nomatch length_eq_of_encodeChar h (decodeOne_eq_iff.1 ⟨ha, rfl⟩)

theorem decodeTwo?_eq_none (h : String.utf8EncodeChar ch = a :: b :: c :: more) :
    decodeTwo? a b = none :=
  Option.eq_none_iff_forall_ne_some.2 fun _ h' =>
    nomatch length_eq_of_encodeChar h (decodeTwo?_eq_some_iff.1 h')

theorem decodeThree?_eq_none (h : String.utf8EncodeChar ch = a :: b :: c :: d :: more) :
    decodeThree? a b c = none :=
  Option.eq_none_iff_forall_ne_some.2 fun _ h' =>
    nomatch length_eq_of_encodeChar h (decodeThree?_eq_some_iff.1 h')

/-- A character at the front is decoded. -/
theorem decodeHead_of_encodeChar (h : String.utf8EncodeChar ch = a :: more) :
    decodeHead a (more ++ octets) = (ch, more.length) := by
  match more, h with
  | [], h =>
    obtain ⟨ha, rfl⟩ := decodeOne_eq_iff.2 h
    rw [decodeHead.eq_def, if_pos ha]
    rfl
  | [b], h =>
    rw [decodeHead.eq_def, if_neg (not_ascii_of_encodeChar h)]
    simp only [List.cons_append, List.nil_append, decodeTwo?_eq_some_iff.2 h]
    rfl
  | [b, c], h =>
    rw [decodeHead.eq_def, if_neg (not_ascii_of_encodeChar h)]
    simp only [List.cons_append, List.nil_append, decodeTwo?_eq_none h,
      decodeThree?_eq_some_iff.2 h]
    rfl
  | [b, c, d], h =>
    rw [decodeHead.eq_def, if_neg (not_ascii_of_encodeChar h)]
    simp only [List.cons_append, List.nil_append, decodeTwo?_eq_none h, decodeThree?_eq_none h,
      decodeFour?_eq_some_iff.2 h]
    rfl
  | b :: c :: d :: e :: more, h =>
    have hlen := length_of_encodeChar h
    simp only [List.length_cons] at hlen
    split at hlen
    · omega
    · split at hlen
      · omega
      · split at hlen <;> omega

/-- Where no character stands at the front, its octet is decoded as U+FFFD. -/
theorem decodeHead_of_forall_not (h : ∀ ch, ¬ String.utf8EncodeChar ch <+: a :: octets) :
    decodeHead a octets = (replacement, 0) := by
  have hne {ch : Char} {front rest : List UInt8} (hoctets : a :: octets = front ++ rest) :
      String.utf8EncodeChar ch ≠ front :=
    fun hch => h ch (hch ▸ hoctets ▸ List.prefix_append front rest)
  unfold decodeHead
  split
  · rename_i ha
    exact absurd (decodeOne_eq_iff.1 ⟨ha, rfl⟩) (hne rfl)
  · split
    · rfl
    · split
      · rename_i h₂
        exact absurd (decodeTwo?_eq_some_iff.1 h₂) (hne rfl)
      · split
        · rfl
        · split
          · rename_i h₃
            exact absurd (decodeThree?_eq_some_iff.1 h₃) (hne rfl)
          · split
            · rfl
            · split
              · rename_i h₄
                exact absurd (decodeFour?_eq_some_iff.1 h₄) (hne rfl)
              · rfl

/-! ## Whole texts -/

theorem exists_encodeChar (ch : Char) : ∃ a more, String.utf8EncodeChar ch = a :: more :=
  List.exists_cons_of_ne_nil (String.utf8EncodeChar_ne_nil (c := ch))

theorem decode_encodeChar_append (ch : Char) (octets : List UInt8) :
    decode (String.utf8EncodeChar ch ++ octets) = ch :: decode octets := by
  obtain ⟨a, more, h⟩ := exists_encodeChar ch
  rw [h, List.cons_append, decode, decodeHead_of_encodeChar h]
  simp only [List.drop_left]

theorem decode_invalid (h : ∀ ch, ¬ String.utf8EncodeChar ch <+: a :: octets) :
    decode (a :: octets) = replacement :: decode octets := by
  rw [decode, decodeHead_of_forall_not h]
  rfl

theorem Reads.eq_decode (h : Reads octets cs) : decode octets = cs := by
  induction h with
  | nil => rw [decode]
  | char _ ih => rw [decode_encodeChar_append, ih]
  | invalid ha _ ih => rw [decode_invalid ha, ih]

theorem reads_decode (octets : List UInt8) : Reads octets (decode octets) := by
  induction hn : octets.length using Nat.strongRecOn generalizing octets with
  | ind n ih =>
    subst hn
    cases octets with
    | nil => rw [decode]; exact .nil
    | cons a octets =>
      by_cases h : ∀ ch, ¬ String.utf8EncodeChar ch <+: a :: octets
      · rw [decode_invalid h]
        exact .invalid h (ih _ (Nat.lt_succ_self _) octets rfl)
      · obtain ⟨ch, rest, hrest⟩ : ∃ ch, String.utf8EncodeChar ch <+: a :: octets := by
          simpa using h
        have hlt : rest.length < (a :: octets).length := by
          have hpos := List.length_pos_iff.2 (String.utf8EncodeChar_ne_nil (c := ch))
          rw [← hrest, List.length_append]
          omega
        rw [← hrest, decode_encodeChar_append]
        exact .char (ih _ hlt rest rfl)

/-- **Octets read as what they are decoded to, and as nothing else.** -/
theorem reads_iff : Reads octets cs ↔ decode octets = cs :=
  ⟨Reads.eq_decode, fun h => h ▸ reads_decode octets⟩

theorem decode_flatMap_encodeChar (cs : List Char) :
    decode (cs.flatMap String.utf8EncodeChar) = cs := by
  induction cs with
  | nil => rw [List.flatMap_nil, decode]
  | cons ch cs ih => rw [List.flatMap_cons, decode_encodeChar_append, ih]

/-- What encodes a text is decoded to it. -/
theorem decode_encode (s : String) : decode (encode s) = s.toList := by
  rw [encode_eq_flatMap, decode_flatMap_encodeChar]

/-- A text in front of octets is read as that text. -/
theorem decode_encode_append (s : String) (octets : List UInt8) :
    decode (encode s ++ octets) = s.toList ++ decode octets := by
  rw [encode_eq_flatMap]
  induction s.toList with
  | nil => rfl
  | cons ch cs ih =>
    rw [List.flatMap_cons, List.append_assoc, decode_encodeChar_append, ih, List.cons_append]

/-! ## The first octets of a text -/

theorem takeOctets_append_of_le {s : String} (h : n ≤ s.utf8ByteSize) (t : String) :
    takeOctets (s ++ t) n = takeOctets s n := by
  rw [← length_encode] at h
  rw [takeOctets, takeOctets, encode_append, List.take_append_of_le_length h]

theorem takeOctets_append (s t : String) (n : Nat) :
    takeOctets (s ++ t) (s.utf8ByteSize + n) = s ++ takeOctets t n := by
  rw [takeOctets, takeOctets, encode_append, ← length_encode, List.take_length_add_append,
    decodeString, decode_encode_append, String.ofList_append, String.ofList_toList]
  rfl

/-- The first octets of an ASCII text are its first characters. -/
theorem encode_takeOctets {s : String} (h : Ascii s) (n : Nat) :
    encode (takeOctets s n) = (encode s).take n := by
  have htake : (encode s).take n = encode (String.ofList (s.toList.take n)) := by
    rw [encode_of_ascii h, encode_of_ascii, String.toList_ofList, List.map_take]
    intro c hc
    rw [String.toList_ofList] at hc
    exact h c (List.mem_of_mem_take hc)
  rw [takeOctets, htake, decodeString, decode_encode, String.ofList_toList]

/-! ## Octets that are characters

An octet below 128 is never a part of another character, so that what is found in the octets is
found in the characters. -/

theorem encodeChar_of_mem (ha : a ∈ String.utf8EncodeChar ch) (hlt : a.toNat < 128) :
    String.utf8EncodeChar ch = [a] := by
  rcases encodeChar_cases ch with ⟨hv, h⟩ | ⟨hv, h⟩ | ⟨hv, h⟩ | ⟨hv, h⟩
  case inl =>
    rw [h, List.mem_singleton] at ha
    rw [h, ha]
  all_goals
    simp only [h, List.mem_cons, List.not_mem_nil, or_false, eq_comm (a := a)] at ha
    rw [ofNat_eq_octet_iff (by omega), ofNat_eq_octet_iff (by omega)] at ha
    try rw [ofNat_eq_octet_iff (by omega)] at ha
    try rw [ofNat_eq_octet_iff (by omega)] at ha
    omega

theorem lineFeed_not_mem_encode {s : String} (h : '\n' ∉ s.toList) : 0x0A ∉ encode s := by
  rw [encode_eq_flatMap, List.mem_flatMap]
  rintro ⟨ch, hch, hmem⟩
  have hfeed : Char.ofNat 10 = ch :=
    (decodeOne_eq_iff.2 (encodeChar_of_mem hmem (by decide))).2
  exact h (hfeed ▸ hch)

theorem encodeChar_slash : String.utf8EncodeChar '/' = [0x2F] := by decide

theorem slash_not_mem_encodeChar (h : ch ≠ '/') : 0x2F ∉ String.utf8EncodeChar ch := by
  intro hmem
  have hslash : Char.ofNat 47 = ch :=
    (decodeOne_eq_iff.2 (encodeChar_of_mem hmem (by decide))).2
  exact h hslash.symm

/-- A pair is not found among octets that do not have its first one. -/
theorem infix_append_iff (h : a ∉ more) : [a, b] <:+: more ++ octets ↔ [a, b] <:+: octets := by
  induction more with
  | nil => rfl
  | cons x more ih =>
    rw [List.mem_cons, not_or] at h
    rw [List.cons_append, List.infix_cons_iff, ih h.2, List.cons_prefix_cons, or_iff_right]
    exact fun hx => h.1 hx.1

theorem prefix_pair_iff {α : Type} {x y : α} {l : List α} :
    [x, y] <+: x :: l ↔ l.head? = some y := by
  cases l <;> simp [eq_comm]

theorem ne_slash_of_invalid (ha : ∀ ch, ¬ String.utf8EncodeChar ch <+: a :: octets) :
    a ≠ 0x2F := by
  rintro rfl
  exact ha '/' (encodeChar_slash ▸ List.prefix_append [0x2F] octets)

theorem Reads.head_slash (h : Reads octets cs) :
    octets.head? = some 0x2F ↔ cs.head? = some '/' := by
  cases h with
  | nil => simp
  | @char ch octets cs h =>
    by_cases hch : ch = '/'
    · rw [hch, encodeChar_slash]
      simp
    · obtain ⟨a, more, hmore⟩ := exists_encodeChar ch
      have ha := slash_not_mem_encodeChar hch
      rw [hmore, List.mem_cons, not_or] at ha
      simp [hmore, hch, Ne.symm ha.1]
  | @invalid a octets cs ha h => simp [ne_slash_of_invalid ha, replacement]

/-- Two slashes among the octets are two slashes among the characters. -/
theorem Reads.slashes_iff (h : Reads octets cs) :
    [0x2F, 0x2F] <:+: octets ↔ ['/', '/'] <:+: cs := by
  induction h with
  | nil => simp
  | @char ch octets cs h ih =>
    by_cases hch : ch = '/'
    · rw [hch, encodeChar_slash, List.singleton_append, List.infix_cons_iff, List.infix_cons_iff,
        ih, prefix_pair_iff, prefix_pair_iff, h.head_slash]
    · rw [infix_append_iff (slash_not_mem_encodeChar hch), ih, List.infix_cons_iff,
        List.cons_prefix_cons, or_iff_right]
      exact fun hx => hch hx.1.symm
  | @invalid a octets cs ha h ih =>
    have hmem : 0x2F ∉ [a] := by simpa using (ne_slash_of_invalid ha).symm
    show [0x2F, 0x2F] <:+: [a] ++ octets ↔ _
    rw [infix_append_iff hmem, ih, List.infix_cons_iff, List.cons_prefix_cons, or_iff_right]
    exact fun hx => absurd hx.1 (by decide)

end StackLang.Text
