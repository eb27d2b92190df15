import HiredisCluster.Cxx.Computation

/-!
# Programs over an interface of external calls

Code that works through calls to a library it does not implement.  An `Interface` lists the calls and the type of
their results; a `Program` is the tree of the calls the code makes, branching on what they return.  A handler says
what the calls do to a state, and `run` executes a program under a handler; the same program is run under several
handlers, so the code is written once and the behaviour of its environment is a parameter.
-/

namespace Cxx

/-- The calls a program may make, with the type of what each of them returns. -/
structure Interface where
  Call : Type
  Result : Call → Type

/-- A program over the interface `I` that throws exceptions of type `ε`. -/
inductive Program (I : Interface) (ε α : Type) where
  | ret (value : α)
  | throws (exception : ε)
  | undefined
  | call (c : I.Call) (rest : I.Result c → Program I ε α)

namespace Program

variable {I : Interface} {σ ε α β γ : Type}

/-- Sequencing: an exception thrown by the first part skips the second. -/
def bind (p : Program I ε α) (f : α → Program I ε β) : Program I ε β :=
  match p with
  | .ret a => f a
  | .throws e => .throws e
  | .undefined => .undefined
  | .call c rest => .call c fun r => (rest r).bind f

instance : Monad (Program I ε) where
  pure := .ret
  bind := bind

theorem bind_assoc (p : Program I ε α) (f : α → Program I ε β) (g : β → Program I ε γ) :
    (p.bind f).bind g = p.bind fun a => (f a).bind g := by
  induction p with
  | ret a => rfl
  | throws e => rfl
  | undefined => rfl
  | call c rest ih =>
    show Program.call c _ = Program.call c _
    congr 1
    funext r
    exact ih r

private theorem bind_ret (p : Program I ε α) : p.bind .ret = p := by
  induction p with
  | ret a => rfl
  | throws e => rfl
  | undefined => rfl
  | call c rest ih =>
    show Program.call c _ = Program.call c _
    congr 1
    funext r
    exact ih r

instance : LawfulMonad (Program I ε) := LawfulMonad.mk' _ bind_ret (fun _ _ => rfl) bind_assoc

/-- One external call. -/
def perform (c : I.Call) : Program I ε (I.Result c) := .call c .ret

/-- What the calls of an interface do to a state. -/
abbrev Handler (I : Interface) (σ ε : Type) := (c : I.Call) → Code σ ε (I.Result c)

/-- Execute a program; a call that throws ends it. -/
def run (h : Handler I σ ε) : Program I ε α → Code σ ε α
  | .ret a => pure a
  | .throws e => Code.throws e
  | .undefined => Code.undefined
  | .call c rest => h c >>= fun r => run h (rest r)

variable (h : Handler I σ ε)

@[simp] theorem run_pure (a : α) : run h (pure a : Program I ε α) = pure a := rfl

@[simp] theorem run_throws (e : ε) : run h (.throws e : Program I ε α) = Code.throws e := rfl

@[simp] theorem run_undefined : run h (.undefined : Program I ε α) = Code.undefined := rfl

@[simp] theorem run_perform (c : I.Call) : run h (perform c) = h c :=
  bind_pure (h c)

/-- `run` is a morphism of monads. -/
@[simp] theorem run_bind (p : Program I ε α) (f : α → Program I ε β) :
    run h (p >>= f) = run h p >>= fun a => run h (f a) := by
  induction p with
  | ret a => rfl
  | throws e => rfl
  | undefined => rfl
  | call c rest ih =>
    show (h c >>= fun r => run h (rest r >>= f)) = (h c >>= fun r => run h (rest r)) >>= fun a => run h (f a)
    rw [LawfulMonad.bind_assoc]
    congr 1
    funext r
    exact ih r

theorem run_of_ret {p : Program I ε α} {s s' : σ} {a : α} (hp : run h p s = (.ret a, s')) (f : α → Program I ε β) :
    run h (p >>= f) s = run h (f a) s' := by
  rw [run_bind, Code.bind_of_ret hp]

theorem run_of_throws {p : Program I ε α} {s s' : σ} {e : ε} (hp : run h p s = (.throws e, s'))
    (f : α → Program I ε β) : run h (p >>= f) s = (.throws e, s') := by
  rw [run_bind, Code.bind_of_throws hp]

theorem run_of_undefined {p : Program I ε α} {s s' : σ} (hp : run h p s = (.undefined, s'))
    (f : α → Program I ε β) : run h (p >>= f) s = (.undefined, s') := by
  rw [run_bind, Code.bind_of_undefined hp]

/-! ### What a program may do -/

/-- A rule for calls that depends on what was called and answered before: when a call is allowed, and the state of the
rule after its answer. -/
structure Protocol (I : Interface) (γ : Type) where
  allows : γ → I.Call → Prop
  after : γ → (c : I.Call) → I.Result c → γ

/-- Whatever is answered, the program makes only calls that are allowed, and where it returns `Q` holds. -/
def Obeys {γ : Type} (P : Protocol I γ) (Q : γ → α → Prop) (g : γ) : Program I ε α → Prop
  | .ret a => Q g a
  | .throws _ => True
  | .undefined => True
  | .call c rest => P.allows g c ∧ ∀ r, Obeys P Q (P.after g c r) (rest r)

section protocol

variable {γ : Type} {P : Protocol I γ} {Q : γ → α → Prop} {R : γ → β → Prop} {g : γ}

theorem Obeys.bind {p : Program I ε α} {f : α → Program I ε β} (hp : p.Obeys P Q g)
    (hf : ∀ g a, Q g a → (f a).Obeys P R g) : (p >>= f).Obeys P R g := by
  induction p generalizing g with
  | ret a => exact hf g a hp
  | throws e => trivial
  | undefined => trivial
  | call c rest ih => exact ⟨hp.1, fun r => ih r (hp.2 r)⟩

end protocol

/-! ### What a program did -/

/-- A call and how it ended. -/
structure Answered (I : Interface) (ε : Type) where
  call : I.Call
  answer : Outcome ε (I.Result call)

/-- The same calls, with a log of all of them. -/
def logged (h : Handler I σ ε) : Handler I (σ × List (Answered I ε)) ε := fun c s =>
  ((h c s.1).1, (h c s.1).2, s.2 ++ [⟨c, (h c s.1).1⟩])

theorem logged_of_eq {h : Handler I σ ε} {c : I.Call} {s s' : σ} {o : Outcome ε (I.Result c)} (hc : h c s = (o, s'))
    (log : List (Answered I ε)) : logged h c (s, log) = (o, s', log ++ [⟨c, o⟩]) := by
  simp only [logged, hc]

/-- Logging does not change what a program does. -/
theorem run_logged (p : Program I ε α) (s : σ) (log : List (Answered I ε)) :
    ((run (logged h) p (s, log)).1, (run (logged h) p (s, log)).2.1) = run h p s := by
  induction p generalizing s log with
  | ret a => rfl
  | throws e => rfl
  | undefined => rfl
  | call c rest ih =>
    show (_, _) = andThen (h c s) fun r => run h (rest r)
    rw [run, Code.bind_apply, logged]
    dsimp only
    cases hc : h c s with
    | mk o s' =>
      cases o with
      | ret r => exact ih r s' _
      | throws e => rfl
      | undefined => rfl

end Program

end Cxx
