import MulticastTunnel.Proofs.Bytes.Reader

/-!
# Outcomes without faults

Whether a reader ends in a fault depends on the reads that have to be sure of their bytes. A
statement about all ends of a computation, `Outcome.Meets` or `Reader.Meets`, is taken apart from
the front: what has to hold of a sequence has to hold of its first step, with what has to hold of
the others as what is to be shown of its result. So the lengths that were required are at hand
where bytes are taken.

* `Outcome.Meets`, `Outcome.Safe` : no fault, and what is known of results and rejections.
* `Reader.meets_bind_iff` and others : what has to hold for each kind of read.
* `Reader.meets_repeated` : a loop over parts, by an invariant of the parts that are left.
-/

namespace MulticastTunnel

namespace Bytes

variable {bytes : Bytes}

theorem between_isInfix {start stop : Nat} : bytes.between start stop <:+: bytes :=
  (List.take_prefix _ _).isInfix.trans (List.drop_suffix _ _).isInfix

theorem toNat_lt (bytes : Bytes) : toNat bytes < 256 ^ bytes.length := by
  have step (start : Nat) : bytes.foldl (fun n b => n * 256 + b.toNat) start <
      (start + 1) * 256 ^ bytes.length := by
    induction bytes generalizing start with
    | nil => simp
    | cons b rest ih =>
      have := ih (start * 256 + b.toNat)
      have byte : start * 256 + b.toNat + 1 ≤ (start + 1) * 256 := by
        have := b.toNat_lt
        omega
      calc rest.foldl (fun n b => n * 256 + b.toNat) (start * 256 + b.toNat)
          < (start * 256 + b.toNat + 1) * 256 ^ rest.length := ih _
        _ ≤ (start + 1) * 256 * 256 ^ rest.length := Nat.mul_le_mul_right _ byte
        _ = (start + 1) * 256 ^ (b :: rest).length := by
          rw [List.length_cons, Nat.pow_succ, Nat.mul_assoc, Nat.mul_comm 256]
  simpa [toNat] using step 0

theorem toNat_take_lt (width : Nat) (bytes : Bytes) : toNat (bytes.take width) < 256 ^ width :=
  Nat.lt_of_lt_of_le (toNat_lt _) (Nat.pow_le_pow_right (by decide) (List.length_take_le ..))

end Bytes

namespace Outcome

variable {α β : Type} {outcome : Outcome α} {f : α → Outcome β}
variable {post post' : α → Prop} {rejected : Malformed → Prop}

/-- The outcome is not a fault; a result has one property, and the cause of a rejection another. -/
def Meets (outcome : Outcome α) (post : α → Prop) (rejected : Malformed → Prop) : Prop :=
  match outcome with
  | .ok a => post a
  | .error (.malformed cause) => rejected cause
  | .error (.fault _) => False

/-- The outcome is not a fault, and a result has a property. -/
abbrev Safe (outcome : Outcome α) (post : α → Prop) : Prop := outcome.Meets post fun _ => True

theorem meets_iff : outcome.Meets post rejected ↔ (∀ a, outcome = .ok a → post a) ∧
    (∀ cause, outcome = .error (.malformed cause) → rejected cause) ∧
    ∀ cause, outcome ≠ .error (.fault cause) := by
  rcases outcome with (cause | cause) | a <;> simp [Meets]

theorem Meets.mono (h : outcome.Meets post rejected) (imp : ∀ a, post a → post' a) :
    outcome.Meets post' rejected := by
  rw [meets_iff] at h ⊢
  exact ⟨fun a ha => imp a (h.1 a ha), h.2⟩

theorem Meets.safe (h : outcome.Meets post rejected) (imp : ∀ a, post a → post' a) :
    outcome.Safe post' := by
  rw [meets_iff] at h
  exact meets_iff.2 ⟨fun a ha => imp a (h.1 a ha), fun _ _ => trivial, h.2.2⟩

@[simp] theorem meets_ok_iff {a : α} : Meets (.ok a) post rejected ↔ post a := .rfl

@[simp] theorem meets_pure_iff {a : α} : Meets (pure a) post rejected ↔ post a := .rfl

@[simp] theorem meets_malformed_iff {cause : Malformed} :
    Meets (.error (.malformed cause)) post rejected ↔ rejected cause := .rfl

@[simp] theorem meets_reject_iff {cause : Malformed} :
    Meets (reject cause) post rejected ↔ rejected cause := .rfl

@[simp] theorem meets_bind_iff {post : β → Prop} :
    (outcome >>= f).Meets post rejected ↔
      outcome.Meets (fun a => (f a).Meets post rejected) rejected := by
  rcases outcome with (cause | cause) | a <;> rfl

@[simp] theorem meets_map_iff {g : α → β} {post : β → Prop} :
    (g <$> outcome).Meets post rejected ↔ outcome.Meets (fun a => post (g a)) rejected := by
  rcases outcome with (cause | cause) | a <;> rfl

@[simp] theorem meets_ite_iff {condition : Prop} [Decidable condition] {other : Outcome α} :
    (if condition then outcome else other).Meets post rejected ↔
      (condition → outcome.Meets post rejected) ∧ (¬ condition → other.Meets post rejected) := by
  split <;> simp [*]

@[simp] theorem meets_slice_iff {start stop : Nat} {bytes : Bytes} {post : Bytes → Prop} :
    (slice start stop bytes).Meets post rejected ↔
      (start ≤ stop ∧ stop ≤ bytes.length) ∧ post (bytes.between start stop) := by
  rw [slice]
  split <;> simp [*, Meets]

@[simp] theorem meets_fitting_iff {bits value : Nat} {post : Nat → Prop} :
    (fitting bits value).Meets post rejected ↔ value < 2 ^ bits ∧ post value := by
  rw [fitting, Nat.shiftLeft_eq, Nat.one_mul]
  split <;> simp [*, Meets]

end Outcome

namespace Reader

variable {α β : Type} {r : Reader α} {f : α → Reader β} {a : α} {what : String} {width n : Nat}
variable {bytes : Bytes} {rejected : Malformed → Prop}

/-- What holds of the result of a reader and of the bytes after it, and of the cause of a
rejection. -/
def Meets (r : Reader α) (bytes : Bytes) (post : α → Bytes → Prop) (rejected : Malformed → Prop) :
    Prop :=
  (r bytes).Meets (fun read => post read.1 read.2) rejected

theorem Meets.mono {post post' : α → Bytes → Prop} (h : r.Meets bytes post rejected)
    (imp : ∀ a rest, post a rest → post' a rest) : r.Meets bytes post' rejected :=
  Outcome.Meets.mono h fun read => imp read.1 read.2

@[simp] theorem meets_parse_iff {post : α → Prop} : (r.parse bytes).Meets post rejected ↔
    r.Meets bytes (fun a _ => post a) rejected := by
  rw [parse, Meets]
  rcases r bytes with (cause | cause) | a <;> rfl

section

variable {post : α → Bytes → Prop}

@[simp] theorem meets_pure_iff :
    (pure a : Reader α).Meets bytes post rejected ↔ post a bytes := .rfl

@[simp] theorem meets_reject_iff {cause : Malformed} :
    (reject cause : Reader α).Meets bytes post rejected ↔ rejected cause := .rfl

@[simp] theorem meets_bind_iff {post : β → Bytes → Prop} :
    (r >>= f).Meets bytes post rejected ↔
      r.Meets bytes (fun a rest => (f a).Meets rest post rejected) rejected := by
  rw [Meets, bind_apply, Outcome.meets_bind_iff]
  rfl

@[simp] theorem meets_map_iff {g : α → β} {post : β → Bytes → Prop} :
    (g <$> r).Meets bytes post rejected ↔
      r.Meets bytes (fun a rest => post (g a) rest) rejected := by
  rw [Meets, map_apply, Outcome.meets_bind_iff]
  rfl

@[simp] theorem meets_ite_iff {condition : Prop} [Decidable condition] {other : Reader α} :
    (if condition then r else other).Meets bytes post rejected ↔
      (condition → r.Meets bytes post rejected) ∧
        (¬ condition → other.Meets bytes post rejected) := by
  split <;> simp [*]

@[simp] theorem meets_liftM_iff {outcome : Outcome α} :
    (liftM outcome : Reader α).Meets bytes post rejected ↔
      outcome.Meets (fun a => post a bytes) rejected := by
  rcases outcome with (cause | cause) | a <;> rfl

end

@[simp] theorem meets_rest_iff {post : Bytes → Bytes → Prop} :
    rest.Meets bytes post rejected ↔ post bytes bytes := .rfl

@[simp] theorem meets_require_iff {post : Unit → Bytes → Prop} :
    (require what n).Meets bytes post rejected ↔
      (n ≤ bytes.length → post () bytes) ∧
      (bytes.length < n → rejected (.tooShort what n bytes.length)) := by
  rw [Meets, require, Bytes.atLeast_eq]
  by_cases room : n ≤ bytes.length <;> simp [room, Nat.not_le.1]

@[simp] theorem meets_word_iff {post : Nat → Bytes → Prop} :
    (word what width).Meets bytes post rejected ↔
      (width ≤ bytes.length → post (Bytes.toNat (bytes.take width)) (bytes.drop width)) ∧
      (bytes.length < width → rejected (.tooShort what width bytes.length)) := by
  rw [Meets, word, Bytes.atLeast_eq]
  by_cases room : width ≤ bytes.length <;> simp [room, Nat.not_le.1]

@[simp] theorem meets_skip_iff {post : Unit → Bytes → Prop} :
    (skip what n).Meets bytes post rejected ↔
      (n ≤ bytes.length → post () (bytes.drop n)) ∧
      (bytes.length < n → rejected (.tooShort what n bytes.length)) := by
  rw [Meets, skip, Bytes.atLeast_eq]
  by_cases room : n ≤ bytes.length <;> simp [room, Nat.not_le.1]

@[simp] theorem meets_take_iff {post : Bytes → Bytes → Prop} :
    (take n).Meets bytes post rejected ↔
      n ≤ bytes.length ∧ post (bytes.take n) (bytes.drop n) := by
  rw [Meets, take, Bytes.atLeast_eq]
  by_cases room : n ≤ bytes.length <;> simp [room, Outcome.Meets]

@[simp] theorem meets_sureWord_iff {post : Nat → Bytes → Prop} :
    (sureWord width).Meets bytes post rejected ↔
      width ≤ bytes.length ∧ post (Bytes.toNat (bytes.take width)) (bytes.drop width) := by
  rw [sureWord, meets_map_iff, meets_take_iff]

/-- Parts are read one after the other, each of them leaving what the others need. -/
theorem meets_repeated {part : Reader α} {I : Nat → Bytes → Prop}
    (step : ∀ n bytes, I (n + 1) bytes →
      part.Meets bytes (fun _ left => I n left) rejected)
    (h : I n bytes) : (repeated part n).Meets bytes (fun _ left => I 0 left) rejected := by
  induction n generalizing bytes with
  | zero => exact h
  | succ n ih =>
    simp only [repeated, meets_bind_iff, meets_pure_iff]
    exact (step n bytes h).mono fun _ left => ih

theorem meets_repeated_sureWord (room : width * n ≤ bytes.length) :
    (repeated (sureWord width) n).Meets bytes (fun _ _ => True) rejected := by
  refine (meets_repeated (I := fun n bytes => width * n ≤ bytes.length)
    (fun n bytes room => ?_) room).mono fun _ _ _ => trivial
  rw [Nat.mul_succ] at room
  simp only [meets_sureWord_iff, List.length_drop]
  omega

end Reader

end MulticastTunnel
