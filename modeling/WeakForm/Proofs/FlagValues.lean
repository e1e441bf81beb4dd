import WeakForm.Proofs.CommandRuns

/-!
# Flags and their values

After the path of the case a verification takes pairs of a flag and a value, and **what stands
where tells a flag from a value, not how it looks**: the path and the values are any texts, names of
flags among them. So the arguments determine the pairs, and an option is the last value that is
given for its flag (`VerifyOptions.ofArguments?_eq_some_iff`).
-/

namespace WeakForm

/-! ## Pairs of a flag and its value -/

/-- The arguments that spell the pairs. -/
def spelled (pairs : List (String × String)) : List String :=
  pairs.flatMap fun pair => [pair.1, pair.2]

/-- The values that are given for a flag, in order. -/
def valuesOf (flag : String) (pairs : List (String × String)) : List String :=
  (pairs.filter fun pair => pair.1 = flag).map Prod.snd

theorem spelled_cons (flag value : String) (pairs : List (String × String)) :
    spelled ((flag, value) :: pairs) = flag :: value :: spelled pairs := rfl

theorem valuesOf_cons_self (flag value : String) (pairs : List (String × String)) :
    valuesOf flag ((flag, value) :: pairs) = value :: valuesOf flag pairs := by
  simp [valuesOf]

theorem valuesOf_cons_of_ne {flag other : String} (hne : other ≠ flag) (value : String)
    (pairs : List (String × String)) :
    valuesOf flag ((other, value) :: pairs) = valuesOf flag pairs := by
  simp [valuesOf, hne]

/-- The last value of a flag stands in for what was given before. -/
theorem getLast?_valuesOf_or {flag value : String} (pairs : List (String × String))
    (before : Option String) :
    (valuesOf flag ((flag, value) :: pairs)).getLast?.or before
      = (valuesOf flag pairs).getLast?.or (some value) := by
  rw [valuesOf_cons_self, List.getLast?_cons]
  cases (valuesOf flag pairs).getLast? <;> rfl

/-- Flags with a value each are pairs, spelled out. -/
theorem areFlags_iff (flags : List String) :
    AreFlags flags ↔ ∃ pairs : List (String × String),
      flags = spelled pairs ∧ ∀ pair ∈ pairs, pair.1 = "--report" ∨ pair.1 = "--text" := by
  constructor
  · intro h
    induction h with
    | nil => exact ⟨[], rfl, nofun⟩
    | @cons flag value flags hflag _ ih =>
      obtain ⟨pairs, rfl, hpairs⟩ := ih
      exact ⟨(flag, value) :: pairs, rfl, List.forall_mem_cons.mpr ⟨hflag, hpairs⟩⟩
  · rintro ⟨pairs, rfl, hpairs⟩
    induction pairs with
    | nil => exact .nil
    | cons pair pairs ih =>
      rw [List.forall_mem_cons] at hpairs
      exact .cons pair.2 hpairs.1 (ih hpairs.2)

namespace VerifyOptions

/-- **The last value of a flag counts**; an option whose flag is missing stays. -/
theorem readFlags_spelled {pairs : List (String × String)}
    (hpairs : ∀ pair ∈ pairs, pair.1 = "--report" ∨ pair.1 = "--text") (options : VerifyOptions) :
    options.readFlags (spelled pairs) = some {
      case := options.case
      report := (valuesOf "--report" pairs).getLast?.or options.report
      text := (valuesOf "--text" pairs).getLast?.or options.text } := by
  -- the options so far are general: each pair leaves others to the rest
  induction pairs generalizing options with
  | nil => rfl
  | cons pair pairs ih =>
    rw [List.forall_mem_cons] at hpairs
    obtain ⟨flag, value⟩ := pair
    rw [spelled_cons, readFlags]
    obtain rfl | rfl : flag = "--report" ∨ flag = "--text" := hpairs.1
    · rw [if_pos rfl, ih hpairs.2, getLast?_valuesOf_or, valuesOf_cons_of_ne (by decide)]
    · rw [if_neg (by decide), if_pos rfl, ih hpairs.2, getLast?_valuesOf_or,
        valuesOf_cons_of_ne (by decide)]

/-- **The arguments of a verification** are the path of the case and pairs of a flag and any value,
where the flag asks for a report or for a text. Of a repeated flag the last value counts. -/
theorem ofArguments?_eq_some_iff (arguments : List String) (options : VerifyOptions) :
    ofArguments? arguments = some options ↔
      ∃ pairs : List (String × String), arguments = options.case :: spelled pairs
        ∧ (∀ pair ∈ pairs, pair.1 = "--report" ∨ pair.1 = "--text")
        ∧ options.report = (valuesOf "--report" pairs).getLast?
        ∧ options.text = (valuesOf "--text" pairs).getLast? := by
  constructor
  · intro h
    cases arguments with
    | nil => cases h
    | cons case flags =>
      obtain ⟨pairs, rfl, hpairs⟩ := (areFlags_iff flags).mp (areFlags_of_readFlags h)
      rw [ofArguments?, readFlags_spelled hpairs, Option.some.injEq] at h
      obtain rfl := h
      exact ⟨pairs, rfl, hpairs, Option.or_none, Option.or_none⟩
  · rintro ⟨pairs, rfl, hpairs, hreport, htext⟩
    rw [ofArguments?, readFlags_spelled hpairs, Option.or_none, Option.or_none, ← hreport, ← htext]

/-- Names of flags as a path and as values. -/
example : ofArguments? ["--text", "--report", "--text", "--report", "--report"]
    = some ⟨"--text", some "--report", none⟩ := by decide

end VerifyOptions

end WeakForm
