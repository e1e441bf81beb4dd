/-!
# Sessions

A command talks to the machine that it runs on: it reads and writes files, asks for the time and
prints. **A session is that conversation as a tree**: each request holds what comes next for every
answer, so what a command does under any behaviour of the machine is a function of the tree. A
`World` answers the requests from a state of its own; run in a world, a session ends with its
result, what it printed, and the state that it leaves.

Files may be refused for any reason, **but printing is taken to succeed**, on the channel for
results and on the one for errors: there is no answer to it. Where it does not succeed, a command
panics in the middle of its text, and nothing is said of that here.
-/

namespace WeakForm

/-- A conversation that ends with a result. -/
inductive Session (β : Type) where
  | done (result : β)
  /-- Asks for the bytes of a file, or the reason why there are none. -/
  | readFile (path : String) (next : Except String ByteArray → Session β)
  /-- Has a file written, and the directories on the way to it made where they are missing. -/
  | writeFile (path content : String) (next : Except String Unit → Session β)
  /-- Asks for the date and time as a text. -/
  | time (next : String → Session β)
  | print (text : String) (next : Session β)
  /-- Prints on the channel for errors. -/
  | complain (text : String) (next : Session β)

namespace Session

variable {β γ : Type}

/-- Goes on with the result of a session. -/
def andThen (f : β → Session γ) : Session β → Session γ
  | .done result => f result
  | .readFile path next => .readFile path fun answer => (next answer).andThen f
  | .writeFile path content next => .writeFile path content fun answer => (next answer).andThen f
  | .time next => .time fun answer => (next answer).andThen f
  | .print text next => .print text (next.andThen f)
  | .complain text next => .complain text (next.andThen f)

instance : Monad Session where
  pure := .done
  bind session f := session.andThen f

/-- Prints a line. -/
def printLine (text : String) : Session Unit := .print (text ++ "\n") (.done ())

end Session

/-- How a machine with states in `σ` answers. -/
structure World (σ : Type) where
  readFile : String → σ → Except String ByteArray × σ
  writeFile : String → String → σ → Except String Unit × σ
  time : σ → String × σ

/-- How a session ends. -/
structure Outcome (σ β : Type) where
  result : β
  printed : List String
  complaints : List String
  state : σ

/-- Runs a session in a world. -/
def Session.run {σ β : Type} (world : World σ) : Session β → σ → Outcome σ β
  | .done result, s => ⟨result, [], [], s⟩
  | .readFile path next, s =>
    let (answer, s) := world.readFile path s
    (next answer).run world s
  | .writeFile path content next, s =>
    let (answer, s) := world.writeFile path content s
    (next answer).run world s
  | .time next, s =>
    let (answer, s) := world.time s
    (next answer).run world s
  | .print text next, s =>
    let rest := next.run world s
    { rest with printed := text :: rest.printed }
  | .complain text next, s =>
    let rest := next.run world s
    { rest with complaints := text :: rest.complaints }

end WeakForm
