import Mathlib
import WeakForm.Index

/-!
# Accesses to buffers

A definition that takes numbers from buffers carries a proof with every place, and then there is
nothing left to go wrong. The arithmetic behind the places is seen better without proofs: in a run
over buffers of any lengths (`Access`) that **has no result if an index is too large for a word or
for its buffer**, and that notes each address on its way.

What a run does is said by `Access.Ends`, and if it moves numbers, by `Access.Moves`; runs are put
together by `Ends.bind`, `Moves.bind` and, for loops, `Ends.foldlM`, which put the addresses
together as well.
-/

namespace WeakForm

/-- The buffers of a check. Coefficients stand where the values stand that they belong to. -/
inductive Buffer where
  /-- Values or coefficients by time. -/
  | time
  /-- Values or coefficients by space. -/
  | space
  /-- Adjoint values. -/
  | adjoint
  /-- Adjoint gradients. -/
  | gradient
  deriving DecidableEq

/-- A number in a buffer. -/
structure Address where
  buffer : Buffer
  index : ℕ
  deriving DecidableEq

/-- Buffers of any lengths. -/
abbrev Buffers (α : Type) : Type := Buffer → Array α

namespace Buffers

variable {α : Type}

/-- Buffers with an adjoint. -/
def paired (time space adjoint gradient : Array α) : Buffers α
  | .time => time
  | .space => space
  | .adjoint => adjoint
  | .gradient => gradient

/-- Buffers without an adjoint. -/
def plain (time space : Array α) : Buffers α := paired time space #[] #[]

/-- What stands at an address. -/
def find? (b : Buffers α) (a : Address) : Option α := (b a.buffer)[a.index]?

/-- The buffers with another number at an address. -/
def write (b : Buffers α) (a : Address) (x : α) : Buffers α :=
  Function.update b a.buffer ((b a.buffer).setIfInBounds a.index x)

end Buffers

/-- Buffers, and the addresses that have been accessed. -/
structure Memory (α : Type) where
  buffers : Buffers α
  accessed : List Address

/-- **A run over buffers.** It has no result if it has left a buffer. -/
abbrev Access (α β : Type) : Type := StateT (Memory α) Option β

namespace Access

variable {α β γ : Type}

/-- Reads the number at an address, whose index has to be a word and to lie in the buffer. Indices
are sums and products, none of which passes the index itself, so a word cannot overflow earlier. -/
def read (a : Address) : Access α α := fun m => do
  let i ← asIndex? a.index
  let x ← m.buffers.find? ⟨a.buffer, i⟩
  return (x, { m with accessed := m.accessed ++ [a] })

/-- Adds an amount to the number at an address. -/
def add [Add α] (a : Address) (delta : α) : Access α Unit := do
  let x ← read a
  modify fun m => { m with buffers := m.buffers.write a (x + delta) }

/-- **What a run does**: from the buffers `b` it ends with the result `x` and the buffers `b'`, and
it accesses the given addresses, whatever has been accessed before. -/
def Ends (run : Access α β) (b : Buffers α) (x : β) (b' : Buffers α) (accessed : List Address) :
    Prop :=
  ∀ before, run ⟨b, before⟩ = some (x, ⟨b', before ++ accessed⟩)

variable {b b' b'' : Buffers α} {x : β} {y : γ} {as as' : List Address}

theorem ends_pure (b : Buffers α) (x : β) : Ends (pure x) b x b [] := by
  intro before
  rw [List.append_nil]
  rfl

/-- One run after the other: the addresses of the second follow those of the first. -/
theorem Ends.bind {run : Access α β} {f : β → Access α γ} (h : Ends run b x b' as)
    (hnext : Ends (f x) b' y b'' as') : Ends (run >>= f) b y b'' (as ++ as') := by
  intro before
  show (run ⟨b, before⟩ >>= fun r => f r.1 r.2) = _
  rw [h before, ← List.append_assoc]
  exact hnext _

/-- A run whose result is passed through a function. -/
theorem Ends.map {run : Access α β} (h : Ends run b x b' as) (f : β → γ) :
    Ends (run >>= fun r => pure (f r)) b (f x) b' as := by
  have hbind := h.bind (f := fun r => pure (f r)) (ends_pure b' (f x))
  rwa [List.append_nil] at hbind

theorem ends_read {a : Address} {x : α} (hword : a.index < UInt64.size)
    (hx : b.find? a = some x) : Ends (read a) b x b [a] := by
  intro before
  show (asIndex? a.index >>= fun i => b.find? ⟨a.buffer, i⟩ >>= _) = _
  rw [asIndex?, if_pos hword]
  show (b.find? a >>= _) = _
  rw [hx]
  rfl

theorem ends_add [Add α] {a : Address} {x : α} (hword : a.index < UInt64.size)
    (hx : b.find? a = some x) (delta : α) :
    Ends (add a delta) b () (b.write a (x + delta)) [a] := by
  intro before
  show (read a ⟨b, before⟩ >>= _) = _
  rw [ends_read hword hx before]
  rfl

/-- **A run that moves numbers**: those at the addresses that it accesses, by an amount, and no
others. -/
structure Moves [Add α] (run : Access α Unit) (b b' : Buffers α) (accessed : List Address)
    (delta : α) : Prop where
  ends : Ends run b () b' accessed
  find?_eq : ∀ a, b'.find? a = if a ∈ accessed then (b.find? a).map (· + delta) else b.find? a

/-- Runs that move different numbers, one after the other. -/
theorem Moves.bind [Add α] {run next : Access α Unit} {delta : α} (h : Moves run b b' as delta)
    (hnext : Moves next b' b'' as' delta) (hdisjoint : ∀ a ∈ as, a ∉ as') :
    Moves (run >>= fun _ => next) b b'' (as ++ as') delta where
  ends := h.ends.bind hnext.ends
  find?_eq := by
    intro a
    rw [hnext.find?_eq, h.find?_eq]
    by_cases ha : a ∈ as
    · simp [ha, hdisjoint a ha]
    · simp [ha]

/-- **A loop** whose steps end, whatever has been gathered, and leave the buffers alone. -/
theorem Ends.foldlM {ι : Type} {step : γ → ι → Access α γ} {f : γ → ι → γ}
    {accessed : ι → List Address} (h : ∀ y i, Ends (step y i) b (f y i) b (accessed i))
    (is : List ι) (y : γ) : Ends (is.foldlM step y) b (is.foldl f y) b (is.flatMap accessed) := by
  -- by induction on what is left of the loop, for whatever has been gathered
  induction is generalizing y with
  | nil => exact ends_pure b y
  | cons i is ih =>
    rw [List.foldlM_cons, List.foldl_cons, List.flatMap_cons]
    exact (h y i).bind (ih (f y i))

end Access

namespace Buffers

variable {α : Type} {n m : ℕ}

/-- A write is found at its own address and nowhere else. -/
theorem find?_write {b : Buffers α} {a : Address} {y : α} (h : b.find? a = some y) (x : α)
    (a' : Address) : (b.write a x).find? a' = if a' = a then some x else b.find? a' := by
  obtain ⟨buffer, i⟩ := a
  obtain ⟨buffer', i'⟩ := a'
  obtain ⟨hi, -⟩ := Array.getElem?_eq_some_iff.mp h
  unfold find? write
  by_cases hb : buffer' = buffer
  · subst hb
    rw [Function.update_self, Array.getElem?_setIfInBounds]
    by_cases hii : i = i'
    · subst hii
      simp [hi]
    · simp [hii, Ne.symm hii]
  · rw [Function.update_of_ne hb]
    simp [hb]

/-- What stands in a buffer that is filled from a vector. -/
theorem find?_toArray {b : Buffers α} {buffer : Buffer} {v : Vector α n}
    (h : b buffer = v.toArray) (i : Fin n) : b.find? ⟨buffer, i⟩ = some (v.get i) := by
  unfold find?
  rw [h, Vector.getElem?_toArray, Vector.get_eq_getElem]
  exact Vector.getElem?_eq_getElem i.isLt

variable (v : Vector α n) (w : Vector α m)

theorem write_time (i : Fin n) (x : α) :
    (plain v.toArray w.toArray).write ⟨.time, i⟩ x
      = plain (v.set i x i.isLt).toArray w.toArray := by
  funext buffer
  cases buffer with
  | time => simp [write, plain, paired, Array.setIfInBounds]
  | space => rfl
  | adjoint => rfl
  | gradient => rfl

theorem write_space (i : Fin m) (x : α) :
    (plain v.toArray w.toArray).write ⟨.space, i⟩ x
      = plain v.toArray (w.set i x i.isLt).toArray := by
  funext buffer
  cases buffer with
  | time => rfl
  | space => simp [write, plain, paired, Array.setIfInBounds]
  | adjoint => rfl
  | gradient => rfl

end Buffers

namespace Access

variable {α : Type} [Add α] {n m : ℕ}

theorem moves_add {b : Buffers α} {a : Address} {x : α} (hword : a.index < UInt64.size)
    (hx : b.find? a = some x) (delta : α) :
    Moves (add a delta) b (b.write a (x + delta)) [a] delta where
  ends := ends_add hword hx delta
  find?_eq := by
    intro a'
    rw [Buffers.find?_write hx]
    by_cases ha : a' = a
    · simp [ha, hx]
    · simp [ha]

variable (v : Vector α n) (w : Vector α m) (delta : α)

theorem moves_time (hn : n ≤ UInt64.size) (i : Fin n) :
    Moves (add ⟨.time, i⟩ delta) (.plain v.toArray w.toArray)
      (.plain (v.set i (v.get i + delta) i.isLt).toArray w.toArray) [⟨.time, i⟩] delta := by
  rw [← Buffers.write_time]
  exact moves_add (i.isLt.trans_le hn) (Buffers.find?_toArray rfl i) delta

theorem moves_space (hm : m ≤ UInt64.size) (i : Fin m) :
    Moves (add ⟨.space, i⟩ delta) (.plain v.toArray w.toArray)
      (.plain v.toArray (w.set i (w.get i + delta) i.isLt).toArray) [⟨.space, i⟩] delta := by
  rw [← Buffers.write_space]
  exact moves_add (i.isLt.trans_le hm) (Buffers.find?_toArray rfl i) delta

end Access

end WeakForm
