import Mathlib.Tactic.Ring
import MulticastTunnel.Proofs.Bytes.Safety

/-!
# What readers need

A reader that takes some bytes may be given only a part of them. If it then says that the packet is
too short, whichever part it was given, it needs all of the bytes that it takes. Such readers
compose as those do that undo writers, and loops over them take exactly what was written part by
part: nothing else is accepted, and nothing less.

* `Reader.Consumes` : the reader takes exactly these bytes, and needs all of them.
* `Reader.Consumes.bind`, `Reader.consumes_repeated` : readers one after the other.
* `Reader.exists_of_repeated` : what a loop that succeeded has read.
-/

namespace MulticastTunnel

namespace Bytes

/-- The number that is read from some bytes, behind the number that was read before. -/
theorem foldl_eq (bytes : Bytes) (start : Nat) :
    bytes.foldl (fun n b => n * 256 + b.toNat) start =
      start * 256 ^ bytes.length + toNat bytes := by
  induction bytes generalizing start with
  | nil => simp [toNat]
  | cons b rest ih =>
    have first : toNat (b :: rest) = b.toNat * 256 ^ rest.length + toNat rest := by
      rw [toNat, List.foldl_cons, ih, Nat.zero_mul, Nat.zero_add]
    rw [List.foldl_cons, ih, first, List.length_cons, Nat.pow_succ]
    ring

theorem ofNat_toNat {width : Nat} {bytes : Bytes} (h : bytes.length = width) :
    ofNat width (toNat bytes) = bytes := by
  subst h
  have behind (start : Nat) :
      ofNat bytes.length (bytes.foldl (fun n b => n * 256 + b.toNat) start) = bytes := by
    induction bytes generalizing start with
    | nil => rfl
    | cons b rest ih =>
      have bound := toNat_lt rest
      have high : (start * 256 + b.toNat) * 256 ^ rest.length + toNat rest =
          toNat rest + 256 ^ rest.length * (start * 256 + b.toNat) := by
        rw [Nat.add_comm, Nat.mul_comm]
      have first : UInt8.ofNat (start * 256 + b.toNat) = b := by
        apply UInt8.toNat_inj.1
        have := b.toNat_lt
        simp only [UInt8.toNat_ofNat']
        omega
      rw [List.foldl_cons, List.length_cons, ofNat, ih, foldl_eq, Nat.shiftRight_eq_div_pow,
        Nat.pow_mul, high, Nat.add_mul_div_left _ _ (Nat.pow_pos (by decide)),
        Nat.div_eq_of_lt bound, Nat.zero_add, first]
  exact behind 0

end Bytes

/-- The packet was found to be too short. -/
def Outcome.TooShort {α : Type} (outcome : Outcome α) : Prop :=
  ∃ what needed available, outcome = .error (.malformed (.tooShort what needed available))

theorem Outcome.TooShort.bind {α β : Type} {outcome : Outcome α} (h : outcome.TooShort)
    (next : α → Outcome β) : (outcome >>= next).TooShort := by
  obtain ⟨what, needed, available, rfl⟩ := h
  exact ⟨what, needed, available, rfl⟩

namespace Reader

variable {α β γ : Type} {r : Reader α} {f : α → Reader β} {a : α} {b : β}
variable {bytes more rest : Bytes} {what : String} {width n : Nat}

/-- The reader takes exactly these bytes for this value, whatever follows them, and finds a packet
that ends before they do too short. -/
structure Consumes (r : Reader α) (bytes : Bytes) (a : α) : Prop where
  reads : r.Reads bytes a
  starves : ∀ front missing, bytes = front ++ missing → missing ≠ [] → (r front).TooShort

theorem Consumes.pure (a : α) : (pure a : Reader α).Consumes [] a := by
  refine ⟨Reads.pure a, ?_⟩
  intro front missing split some
  exact absurd (List.append_eq_nil_iff.1 split.symm).2 some

theorem Consumes.map (h : r.Consumes bytes a) (g : α → β) : (g <$> r).Consumes bytes (g a) := by
  refine ⟨h.reads.map g, ?_⟩
  intro front missing split some
  rw [map_apply]
  exact (h.starves front missing split some).bind _

theorem Consumes.bind (h : r.Consumes bytes a) (next : (f a).Consumes more b) :
    (r >>= f).Consumes (bytes ++ more) b := by
  refine ⟨h.reads.bind next.reads, ?_⟩
  intro front missing split some
  rw [bind_apply]
  rcases List.append_eq_append_iff.1 split with ⟨part, rfl, hmore⟩ | ⟨part, hbytes, hmissing⟩
  · -- the first reader has all it needs
    rw [h.reads]
    exact next.starves part missing hmore some
  · rcases List.eq_nil_or_concat part with rfl | ⟨_, _, hpart⟩
    · rw [List.append_nil] at hbytes
      rw [List.nil_append] at hmissing
      subst hbytes hmissing
      have read := h.reads []
      rw [List.append_nil] at read
      rw [read]
      exact next.starves [] _ rfl some
    · exact (h.starves front part hbytes (by simp [hpart])).bind _

theorem Consumes.bind_pure (h : r.Consumes bytes a) {g : α → β} :
    (r >>= fun a => Pure.pure (g a)).Consumes bytes (g a) := h.map g

theorem length_lt_of_cut {front missing : Bytes} (cut : bytes = front ++ missing)
    (some : missing ≠ []) : front.length < bytes.length := by
  have := List.length_pos_iff.2 some
  rw [cut, List.length_append]
  omega

theorem consumes_word (h : bytes.length = width) :
    (word what width).Consumes bytes bytes.toNat := by
  refine ⟨reads_word h, ?_⟩
  intro front missing split some
  refine ⟨what, width, front.length, ?_⟩
  rw [word, Bytes.atLeast_of_short (h ▸ length_lt_of_cut split some)]
  rfl

theorem consumes_skip (h : bytes.length = n) : (skip what n).Consumes bytes () := by
  refine ⟨reads_skip h, ?_⟩
  intro front missing split some
  refine ⟨what, n, front.length, ?_⟩
  rw [skip, Bytes.atLeast_of_short (h ▸ length_lt_of_cut split some)]
  rfl

theorem consumes_word_ofNat (h : n < 256 ^ width) :
    (word what width).Consumes (Bytes.ofNat width n) n := by
  have read : (word what width).Consumes _ _ := consumes_word (Bytes.length_ofNat width n)
  rwa [Bytes.toNat_ofNat_of_lt h] at read

theorem consumes_u8 (b : UInt8) : (u8 what).Consumes [b] b := by
  have read : (word what 1).Consumes [b] (Bytes.toNat [b]) := consumes_word rfl
  simpa only [u8, Bytes.ofNat_toNat_singleton] using read.map UInt8.ofNat

/-- Parts that are written one after the other are read one after the other, and all of them are
needed. -/
theorem consumes_repeated {part : Reader α} {write : γ → Bytes} {f : γ → α} {parts : List γ}
    (h : ∀ p ∈ parts, part.Consumes (write p) (f p)) :
    (repeated part parts.length).Consumes (parts.flatMap write) (parts.map f) := by
  induction parts with
  | nil => exact Consumes.pure []
  | cons p rest ih =>
    have others := ih fun q hq => h q (List.mem_cons_of_mem _ hq)
    exact (h p List.mem_cons_self).bind others.bind_pure

/-- A loop that succeeded has read as many parts as it was to read, one after the other. -/
theorem exists_of_repeated {part : Reader α} {write : γ → Bytes} {f : γ → α} {P : γ → Prop}
    (h : ∀ bytes a rest, part bytes = .ok (a, rest) → ∃ p, P p ∧ bytes = write p ++ rest ∧ f p = a)
    {values : List α} (read : repeated part n bytes = .ok (values, rest)) :
    ∃ parts : List γ, (∀ p ∈ parts, P p) ∧ parts.length = n ∧
      bytes = parts.flatMap write ++ rest ∧ parts.map f = values := by
  induction n generalizing bytes values with
  | zero =>
    obtain ⟨rfl, rfl⟩ := pure_eq_ok_iff.1 read
    exact ⟨[], by simp, rfl, rfl, rfl⟩
  | succ n ih =>
    obtain ⟨a, mid, first, read⟩ := bind_eq_ok_iff.1 read
    obtain ⟨others, mid', others', read⟩ := bind_eq_ok_iff.1 read
    obtain ⟨rfl, rfl⟩ := pure_eq_ok_iff.1 read
    obtain ⟨p, hp, rfl, rfl⟩ := h _ _ _ first
    obtain ⟨parts, hparts, rfl, rfl, rfl⟩ := ih others'
    refine ⟨p :: parts, ?_, rfl, ?_, rfl⟩
    · exact List.forall_mem_cons.2 ⟨hp, hparts⟩
    · rw [List.flatMap_cons, List.append_assoc]

end Reader

end MulticastTunnel
