import StackLang.Buffer
import StackLang.Proofs.Text.Decoding

/-!
# What a buffer hands on

A sink does not care how a text is cut: two writes one after the other are one write of both texts,
up to the first one that is refused (`Sink.write_append`).  So it is enough to know how much a
buffer has handed on.  `Buffer.Behind k s b` says it: of the text `s` that has been written to a
buffer in front of `k`, the whole pieces that more text followed are what `k` has been given, and
the rest is held.  That is the same statement whether a piece has been refused or not, since a sink
that has refused one takes nothing of the later ones.

The pieces are counted in octets.  A character that takes more than one could be cut in two at the
end of a piece, so the texts are ASCII.

Other writers may well care.  Of one that never fails we still know that no buffer in front of it
fails, whatever the pieces are (`Buffer.Sound`).
-/

set_option autoImplicit false

namespace StackLang

/-! ## Writers that never fail -/

namespace Writer

variable {σ ε : Type} [Writer σ ε] {k : σ}

/-- No write ever fails, whatever has been written before. -/
def Unfailing (k : σ) : Prop :=
  ∀ (before : List String) (s : String),
    (write (before.foldl (fun k t => (write k t).1) k) s).2 = none

theorem Unfailing.write (h : Unfailing k) (s : String) : (Writer.write k s).2 = none := h [] s

theorem Unfailing.next (h : Unfailing k) (s : String) : Unfailing (Writer.write k s).1 :=
  fun before => h (s :: before)

end Writer

/-! ## Sinks -/

namespace Sink

theorem unfailing_buffer (text : String) : Writer.Unfailing (buffer text) := by
  intro before
  induction before generalizing text with
  | nil => exact fun _ => rfl
  | cons t before ih => exact ih (text ++ t)

theorem write_empty (k : Sink) : Writer.write k "" = (k, none) := by
  cases k <;> simp [Writer.write]

/-- **A sink does not care how a text is cut**, up to the first part that it refuses. -/
theorem write_append (k : Sink) (s t : String) :
    Writer.write k (s ++ t) =
      if (Writer.write k s).2.isNone then Writer.write (Writer.write k s).1 t
      else Writer.write k s := by
  cases k with
  | discard => rfl
  | buffer text => simp [Writer.write, String.append_assoc]
  | limited text room =>
    simp only [Writer.write, String.utf8ByteSize_append]
    by_cases hs : s.utf8ByteSize ≤ room
    · obtain ⟨more, rfl⟩ := Nat.exists_eq_add_of_le hs
      by_cases ht : t.utf8ByteSize ≤ more
      · simp [ht, String.append_assoc, Nat.add_sub_add_left]
      · simp [ht, String.append_assoc, Text.takeOctets_append]
    · have hst : ¬ s.utf8ByteSize + t.utf8ByteSize ≤ room := by omega
      simp [hs, hst, Text.takeOctets_append_of_le (Nat.le_of_not_le hs)]

theorem write_append_of_taken {k k' : Sink} {s : String} (h : Writer.write k s = (k', none))
    (t : String) : Writer.write k (s ++ t) = Writer.write k' t := by
  rw [write_append, h]
  rfl

theorem write_append_of_refused {k k' : Sink} {s : String} {e : Refusal}
    (h : Writer.write k s = (k', some e)) (t : String) :
    Writer.write k (s ++ t) = (k', some e) := by
  rw [write_append, h]
  rfl

/-- A sink with room for `n` octets takes a text exactly if it has no more of them. -/
theorem write_limited_snd (text s : String) (n : Nat) :
    (Writer.write (limited text n) s).2 = if s.utf8ByteSize ≤ n then none else some .full := by
  simp only [Writer.write]
  split <;> rfl

/-- It keeps as many of them as fit. -/
theorem encode_write_limited {s : String} (hs : Text.Ascii s) (n : Nat) :
    Text.encode (Writer.write (limited "" n) s).1.text = (Text.encode s).take n := by
  simp only [Writer.write]
  split
  · rename_i hfits
    rw [← Text.length_encode] at hfits
    rw [List.take_of_length_le hfits, text, String.empty_append]
  · rw [text, String.empty_append, Text.encode_takeOctets hs]

end Sink

/-! ## Buffers -/

namespace Buffer

/-- How many of `n` octets have been handed on: the full pieces that another octet followed. -/
def handedOn (n : Nat) : Nat := capacity * ((n - 1) / capacity)

/-- What is held when another octet comes decides whether it finds room. -/
theorem handedOn_succ (n : Nat) :
    handedOn (n + 1) = if n - handedOn n < capacity then handedOn n else n := by
  rw [handedOn, handedOn, capacity]
  by_cases h : n - 4096 * ((n - 1) / 4096) < 4096
  · rw [if_pos h]
    omega
  · rw [if_neg h]
    omega

section

variable {σ ε : Type} [Writer σ ε] {b : Buffer σ ε} {e : ε} {c : Char}

theorem flush_of_failed (h : b.error = some e) : b.flush = b := by
  rw [flush, h]
  rfl

theorem flush_of_empty (h : b.held = "") : b.flush = b := by
  simp [flush, h]

/-- A flush hands on what is held. -/
theorem flush_of_held (h : b.error = none) (hheld : b.held ≠ "") :
    Writer.write b.sink b.held = (b.flush.sink, b.flush.error) := by
  simp only [flush, h, String.isEmpty_iff, hheld, Option.isSome_none, Bool.false_or, if_false]
  rcases Writer.write b.sink b.held with ⟨sink, _ | e⟩ <;> rfl

theorem held_flush (h : b.flush.error = none) : b.flush.held = "" := by
  by_cases hstay : (b.error.isSome || b.held.isEmpty) = true
  · rw [flush, if_pos hstay] at h ⊢
    simpa [h] using hstay
  · rw [flush, if_neg hstay] at h ⊢
    rcases hwrite : Writer.write b.sink b.held with ⟨sink, _ | e⟩
    · rfl
    · rw [hwrite] at h
      cases h

theorem put_of_failed (h : b.error = some e) (c : Char) : b.put c = b := by
  simp [put, flush_of_failed h, h]

theorem put_of_room (h : b.error = none) (hroom : b.held.utf8ByteSize + c.utf8Size ≤ capacity) :
    b.put c = { b with held := b.held.push c } := by
  simp [put, hroom, h]

theorem put_of_full (hfull : ¬ b.held.utf8ByteSize + c.utf8Size ≤ capacity) :
    b.put c =
      if b.flush.error.isSome then b.flush else { b.flush with held := b.flush.held.push c } := by
  rw [put, if_neg hfull]

/-! ### In front of a writer that never fails -/

/-- No piece has failed, and none will. -/
structure Sound (b : Buffer σ ε) : Prop where
  error : b.error = none
  sink : Writer.Unfailing b.sink

theorem Sound.flush (h : b.Sound) : b.flush.Sound := by
  by_cases hheld : b.held = ""
  · rwa [flush_of_empty hheld]
  · have hwrite := flush_of_held h.error hheld
    have herror := h.sink.write b.held
    have hsink := h.sink.next b.held
    rw [hwrite] at herror hsink
    exact ⟨herror, hsink⟩

theorem Sound.put (h : b.Sound) (c : Char) : (b.put c).Sound := by
  by_cases hroom : b.held.utf8ByteSize + c.utf8Size ≤ capacity
  · rw [put_of_room h.error hroom]
    exact ⟨h.error, h.sink⟩
  · rw [put_of_full hroom, h.flush.error]
    exact ⟨h.flush.error, h.flush.sink⟩

theorem Sound.write (h : b.Sound) (s : String) : (b.write s).Sound := by
  rw [Buffer.write]
  induction s.toList generalizing b with
  | nil => exact h
  | cons c cs ih => exact ih (h.put c)

end

/-! ## What has been handed on -/

variable {k : Sink} {b : Buffer Sink Sink.Refusal} {s t : String} {c : Char} {n : Nat}

/-- A flush hands on all that is held. -/
theorem write_held (h : b.error = none) :
    Writer.write b.sink b.held = (b.flush.sink, b.flush.error) := by
  by_cases hheld : b.held = ""
  · rw [flush_of_empty hheld, hheld, h, Sink.write_empty]
  · exact flush_of_held h hheld

/-- `b` is a buffer in front of `k` to which `s` has been written. -/
def Behind (k : Sink) (s : String) (b : Buffer Sink Sink.Refusal) : Prop :=
  ∃ sent held, s = sent ++ held ∧ sent.utf8ByteSize = handedOn s.utf8ByteSize ∧
    Writer.write k sent = (b.sink, b.error) ∧ (b.error = none → b.held = held)

theorem behind_empty (k : Sink) : Behind k "" { sink := k } :=
  ⟨"", "", rfl, rfl, k.write_empty, fun _ => rfl⟩

theorem Behind.flush (h : Behind k s b) :
    Writer.write k s = (b.flush.sink, b.flush.error) := by
  obtain ⟨sent, held, rfl, -, hwrite, hheld⟩ := h
  cases hb : b.error with
  | some e =>
    rw [hb] at hwrite
    rw [flush_of_failed hb, hb, Sink.write_append_of_refused hwrite]
  | none =>
    rw [hb] at hwrite
    rw [Sink.write_append_of_taken hwrite, ← hheld hb, write_held hb]

/-- One more character: it is held behind the others, or alone after a full piece. -/
theorem Behind.put (h : Behind k s b) (hc : c.utf8Size = 1) : Behind k (s.push c) (b.put c) := by
  obtain ⟨sent, held, hs, hsent, hwrite, hheld⟩ := id h
  have hpush : (s.push c).utf8ByteSize = s.utf8ByteSize + 1 := by
    rw [String.utf8ByteSize_push, hc]
  have hsize : s.utf8ByteSize - handedOn s.utf8ByteSize = held.utf8ByteSize := by
    rw [← hsent, hs, String.utf8ByteSize_append, Nat.add_sub_cancel_left]
  by_cases hroom : held.utf8ByteSize < capacity
  · refine ⟨sent, held.push c, ?_, ?_, ?_, ?_⟩
    · rw [hs, String.push_eq_append, String.push_eq_append, String.append_assoc]
    · rw [hpush, handedOn_succ, hsize, if_pos hroom, hsent]
    · cases hb : b.error with
      | some e => rw [put_of_failed hb, hwrite]
      | none => rw [put_of_room hb (by rw [hheld hb, hc]; exact hroom), hwrite]
    · cases hb : b.error with
      | some e =>
        rw [put_of_failed hb, hb]
        exact nofun
      | none =>
        rw [put_of_room hb (by rw [hheld hb, hc]; exact hroom), hheld hb]
        exact fun _ => rfl
  · -- the piece is full: all of `s` is handed on, unless the sink has failed before
    have hput : b.put c =
        if b.flush.error.isSome then b.flush
        else { b.flush with held := b.flush.held.push c } := by
      cases hb : b.error with
      | some e => rw [put_of_failed hb, flush_of_failed hb, if_pos (by rw [hb]; rfl)]
      | none => exact put_of_full (by rw [hheld hb, hc]; exact hroom)
    refine ⟨s, "".push c, ?_, ?_, ?_, ?_⟩
    · rw [String.push_eq_append, String.push_eq_append, String.empty_append]
    · rw [hpush, handedOn_succ, hsize, if_neg hroom]
    · rw [h.flush, hput]
      cases hb : b.flush.error <;> simp [hb]
    · rw [hput]
      cases hb : b.flush.error <;> simp [hb, held_flush]

/-- **A buffer hands on whole pieces.** -/
theorem Behind.write (h : Behind k s b) (ht : Text.Ascii t) :
    Behind k (s ++ t) (b.write t) := by
  have hfold : ∀ cs : List Char, (∀ c ∈ cs, c.toNat < 128) → ∀ s b, Behind k s b →
      Behind k (s ++ String.ofList cs) (cs.foldl Buffer.put b) := by
    intro cs
    induction cs with
    | nil =>
      intro _ s b h
      rwa [String.ofList_nil, String.append_empty]
    | cons c cs ih =>
      intro hcs s b h
      obtain ⟨hc, hcs⟩ := List.forall_mem_cons.1 hcs
      have hone : c.utf8Size = 1 := Char.utf8Size_eq_one_iff.2 (Nat.le_of_lt_succ hc)
      have hrest := ih hcs (s.push c) (b.put c) (h.put hone)
      rwa [String.push_eq_append, String.append_assoc, ← String.ofList_cons] at hrest
  have hall := hfold t.toList ht s b h
  rwa [String.ofList_toList] at hall

end Buffer

end StackLang
