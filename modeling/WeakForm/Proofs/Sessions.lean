import Mathlib
import WeakForm.Command.Session

/-!
# What is asked and answered in a session

A session run in a world leaves a record of its conversation. Of that record the part about files is
what a command does to the machine: which files it read, which it had written, and how each request
was answered (`Session.exchanges`). **Both the outcome and the exchanges of a sequence are those of
its parts** (`Session.run_bind`, `Session.exchanges_bind`), so a command is run step by step.
-/

namespace WeakForm

/-- A request about a file with its answer. -/
inductive FileExchange where
  | read (path : String) (answer : Except String ByteArray)
  | write (path content : String) (answer : Except String Unit)

/-- A file, given by its path and its content, that has been written. -/
def FileExchange.written (file : String × String) : FileExchange := .write file.1 file.2 (.ok ())

/-- The outcome of two sessions, one after the other. -/
def Outcome.followedBy {σ β γ : Type} (first : Outcome σ β) (second : Outcome σ γ) :
    Outcome σ γ where
  result := second.result
  printed := first.printed ++ second.printed
  complaints := first.complaints ++ second.complaints
  state := second.state

namespace Session

variable {σ β γ : Type} (world : World σ)

/-- The exchanges about files in a run, in order. -/
def exchanges : Session β → σ → List FileExchange
  | .done _, _ => []
  | .readFile path next, s =>
    let (answer, s) := world.readFile path s
    .read path answer :: (next answer).exchanges s
  | .writeFile path content next, s =>
    let (answer, s) := world.writeFile path content s
    .write path content answer :: (next answer).exchanges s
  | .time next, s =>
    let (answer, s) := world.time s
    (next answer).exchanges s
  | .print _ next, s => next.exchanges s
  | .complain _ next, s => next.exchanges s

/-! ## One request -/

section Request

variable {world} {path content : String} {s s' : σ}

theorem run_writeFile {next : Except String Unit → Session β} {answer : Except String Unit}
    (h : world.writeFile path content s = (answer, s')) :
    (writeFile path content next).run world s = (next answer).run world s' := by
  rw [run, h]

theorem exchanges_writeFile {next : Except String Unit → Session β} {answer : Except String Unit}
    (h : world.writeFile path content s = (answer, s')) :
    (writeFile path content next).exchanges world s
      = .write path content answer :: (next answer).exchanges world s' := by
  rw [exchanges, h]

end Request

/-! ## Sequences -/

/-- **The outcome of a sequence**: the second session is run where the first one ended. -/
theorem run_bind (session : Session β) (f : β → Session γ) (s : σ) :
    (session >>= f).run world s = (session.run world s).followedBy
      ((f (session.run world s).result).run world (session.run world s).state) := by
  show (session.andThen f).run world s = _
  induction session generalizing s with
  | done result => rfl
  | readFile path next ih => exact ih _ _
  | writeFile path content next ih => exact ih _ _
  | time next ih => exact ih _ _
  | print text next ih =>
    exact congrArg (fun rest => { rest with printed := text :: rest.printed }) (ih s)
  | complain text next ih =>
    exact congrArg (fun rest => { rest with complaints := text :: rest.complaints }) (ih s)

/-- **The exchanges of a sequence** are those of the first session and then those of the second. -/
theorem exchanges_bind (session : Session β) (f : β → Session γ) (s : σ) :
    (session >>= f).exchanges world s
      = session.exchanges world s
        ++ (f (session.run world s).result).exchanges world (session.run world s).state := by
  show (session.andThen f).exchanges world s = _
  induction session generalizing s with
  | done result => rfl
  | readFile path next ih => exact congrArg (_ :: ·) (ih _ _)
  | writeFile path content next ih => exact congrArg (_ :: ·) (ih _ _)
  | time next ih => exact ih _ _
  | print text next ih => exact ih _
  | complain text next ih => exact ih _

/-! ## Writing files -/

/-- **One of the files is refused**, and those before it are written. -/
def StopsAt (files : List (String × String)) (exchanges : List FileExchange) : Prop :=
  ∃ before path content after reason, files = before ++ (path, content) :: after
    ∧ exchanges = before.map .written ++ [.write path content (.error reason)]

theorem StopsAt.append {files : List (String × String)} {exchanges : List FileExchange}
    (h : StopsAt files exchanges) (more : List (String × String)) :
    StopsAt (files ++ more) exchanges := by
  obtain ⟨before, path, content, after, reason, rfl, hexchanges⟩ := h
  exact ⟨before, path, content, after ++ more, reason, by simp, hexchanges⟩

theorem StopsAt.written_append {files : List (String × String)} {exchanges : List FileExchange}
    (h : StopsAt files exchanges) (written : List (String × String)) :
    StopsAt (written ++ files) (written.map .written ++ exchanges) := by
  obtain ⟨before, path, content, after, reason, rfl, rfl⟩ := h
  exact ⟨written ++ before, path, content, after, reason, by simp, by simp⟩

/-- Then not all of them are written. -/
theorem StopsAt.ne {files : List (String × String)} {exchanges : List FileExchange}
    (h : StopsAt files exchanges) : exchanges ≠ files.map .written := by
  obtain ⟨before, path, content, after, reason, hfiles, hexchanges⟩ := h
  intro heq
  have hmem : FileExchange.write path content (.error reason) ∈ files.map .written := by
    rw [← heq, hexchanges]
    exact List.mem_append_right _ List.mem_cons_self
  obtain ⟨file, -, hfile⟩ := List.mem_map.mp hmem
  cases hfile

/-- **A session has files written in order, until one is refused**, and tells whether all were
written. -/
def Writes {ε : Type} (files : List (String × String)) (session : ExceptT ε Session Unit) : Prop :=
  ∀ (σ : Type) (world : World σ) (s : σ),
    ((session.run.run world s).result = .ok ()
        ∧ session.run.exchanges world s = files.map .written)
      ∨ (∃ e, (session.run.run world s).result = .error e)
        ∧ StopsAt files (session.run.exchanges world s)

variable {ε : Type}

theorem writes_nil : Writes [] (pure () : ExceptT ε Session Unit) := fun _ _ _ => Or.inl ⟨rfl, rfl⟩

/-- Files that are written one after the other. -/
theorem Writes.bind {first second : List (String × String)} {x y : ExceptT ε Session Unit}
    (hx : Writes first x) (hy : Writes second y) : Writes (first ++ second) (x >>= fun _ => y) := by
  intro σ world s
  have hrun : (x >>= fun _ => y).run = x.run >>= fun
      | .ok _ => y.run
      | .error e => .done (.error e) :=
    congrArg (x.run >>= ·) (funext fun
      | .ok _ => rfl
      | .error _ => rfl)
  rw [hrun, run_bind, exchanges_bind]
  obtain ⟨hresult, hexchanges⟩ | ⟨⟨e, hresult⟩, hstops⟩ := hx σ world s
  · rw [hresult, hexchanges]
    obtain ⟨hresult, hexchanges⟩ | ⟨herror, hstops⟩ := hy σ world (x.run.run world s).state
    · refine Or.inl ⟨hresult, ?_⟩
      rw [hexchanges, List.map_append]
    · exact Or.inr ⟨herror, hstops.written_append first⟩
  · rw [hresult]
    refine Or.inr ⟨⟨e, rfl⟩, ?_⟩
    simpa only [exchanges, List.append_nil] using hstops.append second

end Session

end WeakForm
