import OpenBalenaVpn.Foundation.Transition
import Mathlib.Logic.Function.Basic

namespace OpenBalenaVpn

-- A program that calls one command of its environment after another.
inductive Program (κ : Type) (ρ : κ → Type) (α : Type) where
  | done (value : α)
  | call (command : κ) (next : ρ command → Program κ ρ α)

namespace Program

variable {κ : Type} {ρ : κ → Type} {α β σ γ : Type}

def bind (program : Program κ ρ α) (next : α → Program κ ρ β) : Program κ ρ β :=
  match program with
  | done value => next value
  | call command rest => call command fun reply => (rest reply).bind next

instance : Monad (Program κ ρ) where
  pure := done
  bind := bind

def first : Program κ ρ α → Option κ
  | done _ => none
  | call command _ => some command

section Alone

variable (perform : (command : κ) → σ → ρ command × σ)

-- The program is the only one in its environment.
def exec : Program κ ρ α → σ → α × σ
  | done value, state => (value, state)
  | call command next, state =>
      exec (next (perform command state).1) (perform command state).2

-- The commands that it calls.
def calls : Program κ ρ α → σ → List κ
  | done _, _ => []
  | call command next, state =>
      command :: calls (next (perform command state).1) (perform command state).2

@[simp] theorem exec_pure (value : α) (state : σ) :
    exec perform (pure value : Program κ ρ α) state = (value, state) := rfl

@[simp] theorem exec_bind (program : Program κ ρ α) (next : α → Program κ ρ β) (state : σ) :
    exec perform (program >>= next) state =
      exec perform (next (exec perform program state).1) (exec perform program state).2 := by
  change exec perform (program.bind next) state = _
  induction program generalizing state with
  | done value => rfl
  | call command rest ih => exact ih _ _

@[simp] theorem calls_pure (value : α) (state : σ) :
    calls perform (pure value : Program κ ρ α) state = [] := rfl

@[simp] theorem calls_bind (program : Program κ ρ α) (next : α → Program κ ρ β) (state : σ) :
    calls perform (program >>= next) state = calls perform program state ++
      calls perform (next (exec perform program state).1) (exec perform program state).2 := by
  change calls perform (program.bind next) state = _
  induction program generalizing state with
  | done value => rfl
  | call command rest ih => exact congrArg (command :: ·) (ih _ _)

end Alone

section Follows

variable (allow : γ → κ → Prop) (learn : γ → (command : κ) → ρ command → γ)

-- Whatever the replies are, each command is one that the program may call by what it has
-- learned from the replies before, and at its end it has learned what is asked for.
def Follows (post : γ → α → Prop) : γ → Program κ ρ α → Prop
  | known, done value => post known value
  | known, call command next =>
      allow known command ∧ ∀ reply, Follows post (learn known command reply) (next reply)

variable {allow learn}

theorem Follows.bind {post : γ → α → Prop} {last : γ → β → Prop} {known : γ}
    {program : Program κ ρ α} {next : α → Program κ ρ β}
    (h : Follows allow learn post known program)
    (hnext : ∀ known value, post known value → Follows allow learn last known (next value)) :
    Follows allow learn last known (program >>= next) := by
  change Follows allow learn last known (program.bind next)
  induction program generalizing known with
  | done value => exact hnext known value h
  | call command rest ih => exact ⟨h.1, fun reply => ih reply (h.2 reply)⟩

end Follows

end Program

-- Programs that share an environment, at most one at each place.
structure Thread (κ : Type) (ρ : κ → Type) (τ : Type) where
  task : τ
  rest : Program κ ρ Unit

structure Pool (ι σ : Type) (κ : Type) (ρ : κ → Type) (τ : Type) where
  shared : σ
  running : ι → Option (Thread κ ρ τ)

namespace Pool

variable {ι σ κ τ χ : Type} {ρ : κ → Type} [DecidableEq ι]

-- The program at a place takes a step under some choice of the environment.
inductive Event (ι τ χ : Type) where
  | start (place : ι) (task : τ)
  | advance (place : ι) (choice : χ)
  | finish (place : ι)

variable {condition : κ → σ → Prop} (program : τ → Program κ ρ Unit) (fits : ι → τ → Bool)
  (perform : χ → (command : κ) → σ → ρ command × σ)

def initial (state : σ) : Pool ι σ κ ρ τ := ⟨state, fun _ => none⟩

def step (pool : Pool ι σ κ ρ τ) : Event ι τ χ → Option (Pool ι σ κ ρ τ)
  | .start place task =>
      match pool.running place with
      | none =>
          if fits place task then
            some { pool with
              running := Function.update pool.running place (some ⟨task, program task⟩) }
          else none
      | some _ => none
  | .advance place choice =>
      match pool.running place with
      | some ⟨task, .call command next⟩ =>
          let reply := perform choice command pool.shared
          some { shared := reply.2
                 running := Function.update pool.running place (some ⟨task, next reply.1⟩) }
      | _ => none
  | .finish place =>
      match pool.running place with
      | some ⟨_, .done ()⟩ =>
          some { pool with running := Function.update pool.running place none }
      | _ => none

-- The command that is called in a step.
def called (pool : Pool ι σ κ ρ τ) : Event ι τ χ → Option κ
  | .advance place _ => (pool.running place).bind fun thread => thread.rest.first
  | _ => none

-- It is called in a state that meets the condition.
def Meets (condition : κ → σ → Prop) (pool : Pool ι σ κ ρ τ) (event : Event ι τ χ) : Prop :=
  ∀ command ∈ pool.called event, condition command pool.shared

instance [∀ command state, Decidable (condition command state)] (pool : Pool ι σ κ ρ τ)
    (event : Event ι τ χ) : Decidable (Meets condition pool event) :=
  inferInstanceAs (Decidable (∀ command ∈ pool.called event, condition command pool.shared))

-- What each step does.
theorem step_cases {pool next : Pool ι σ κ ρ τ} {event : Event ι τ χ}
    (h : step program fits perform pool event = some next) :
    (∃ place task, event = .start place task ∧ fits place task = true ∧
      next = { pool with
        running := Function.update pool.running place (some ⟨task, program task⟩) }) ∨
    (∃ place choice task command rest, event = .advance place choice ∧
      pool.running place = some ⟨task, .call command rest⟩ ∧
      next = { shared := (perform choice command pool.shared).2
               running := Function.update pool.running place
                 (some ⟨task, rest (perform choice command pool.shared).1⟩) }) ∨
    (∃ place, event = .finish place ∧
      next = { pool with running := Function.update pool.running place none }) := by
  cases event with
  | start place task =>
      refine Or.inl ⟨place, task, rfl, ?_⟩
      rw [step] at h
      split at h
      · by_cases hfits : fits place task = true
        · rw [if_pos hfits] at h
          exact ⟨hfits, (Option.some.inj h).symm⟩
        · rw [if_neg hfits] at h
          cases h
      · cases h
  | advance place choice =>
      refine Or.inr (Or.inl ⟨place, choice, ?_⟩)
      rw [step] at h
      split at h
      · next task command rest hrunning =>
          exact ⟨task, command, rest, rfl, hrunning, (Option.some.inj h).symm⟩
      · cases h
  | finish place =>
      refine Or.inr (Or.inr ⟨place, rfl, ?_⟩)
      rw [step] at h
      split at h
      · exact (Option.some.inj h).symm
      · cases h

-- A program that is not interrupted does what it does alone.
theorem run_advances (choice : χ) {place : ι} {task : τ} {rest : Program κ ρ Unit}
    {pool : Pool ι σ κ ρ τ} (h : pool.running place = some ⟨task, rest⟩) :
    Transition.run (step program fits perform) pool (List.replicate
        (Program.calls (perform choice) rest pool.shared).length (.advance place choice)) =
      some { shared := (Program.exec (perform choice) rest pool.shared).2
             running := Function.update pool.running place (some ⟨task, .done ()⟩) } := by
  induction rest generalizing pool with
  | done value => exact congrArg some (by rw [← h, Function.update_eq_self]; rfl)
  | call command next ih =>
      have hstep : step program fits perform pool (.advance place choice) =
          some { shared := (perform choice command pool.shared).2
                 running := Function.update pool.running place
                   (some ⟨task, next (perform choice command pool.shared).1⟩) } := by
        rw [step, h]
      rw [Program.calls, List.length_cons, List.replicate_succ, Transition.run, hstep,
        Option.bind_some, ih _ (Function.update_self _ _ _), Function.update_idem]
      rfl

def whole (place : ι) (task : τ) (choice : χ) (count : Nat) : List (Event ι τ χ) :=
  .start place task :: (List.replicate count (.advance place choice) ++ [.finish place])

theorem run_whole (choice : χ) {place : ι} {task : τ} {pool : Pool ι σ κ ρ τ}
    (hfits : fits place task = true) (h : pool.running place = none) :
    Transition.run (step program fits perform) pool (whole place task choice
        (Program.calls (perform choice) (program task) pool.shared).length) =
      some ⟨(Program.exec (perform choice) (program task) pool.shared).2, pool.running⟩ := by
  have hstart : step program fits perform pool (.start place task) = some { pool with
      running := Function.update pool.running place (some ⟨task, program task⟩) } := by
    rw [step, h]
    exact if_pos hfits
  have hadvances := @run_advances _ _ _ _ _ _ _ program fits perform choice place task
    (program task) { pool with
      running := Function.update pool.running place (some ⟨task, program task⟩) }
    (Function.update_self _ _ _)
  have hidle : Function.update pool.running place none = pool.running := by
    rw [← h, Function.update_eq_self]
  rw [whole, Transition.run, hstart, Option.bind_some, Transition.run_append, hadvances,
    Option.bind_some, Transition.run_singleton, step]
  simp only [Function.update_self, Function.update_idem, hidle]

section Interference

variable {program fits perform} {δ : Type} [LE δ] {inv : δ → σ → Prop}
  {assertion : δ → τ → Program κ ρ Unit → Prop}

-- The programs are where their assertions say, by what is known of the environment.
structure Guarded (inv : δ → σ → Prop) (assertion : δ → τ → Program κ ρ Unit → Prop)
    (known : δ) (pool : Pool ι σ κ ρ τ) : Prop where
  shared : inv known pool.shared
  running : ∀ place task rest, pool.running place = some ⟨task, rest⟩ → assertion known task rest

theorem running_update {property : τ → Program κ ρ Unit → Prop}
    {running : ι → Option (Thread κ ρ τ)} {place : ι} {thread : Option (Thread κ ρ τ)}
    (hothers : ∀ other task rest, running other = some ⟨task, rest⟩ → property task rest)
    (hthread : ∀ task rest, thread = some ⟨task, rest⟩ → property task rest) :
    ∀ other task rest, Function.update running place thread other = some ⟨task, rest⟩ →
      property task rest := by
  intro other task rest h
  by_cases heq : other = place
  · rw [heq, Function.update_self] at h
    exact hthread task rest h
  · rw [Function.update_of_ne heq] at h
    exact hothers other task rest h

-- The rule for programs that do not disturb each other: what a program relies on is not
-- lost when more becomes known.
theorem guarded_throughout (hstart : ∀ known task, assertion known task (program task))
    (hmono : ∀ known more task rest, known ≤ more → assertion known task rest →
      assertion more task rest)
    (hcall : ∀ known state choice task command rest, inv known state →
      assertion known task (.call command rest) → condition command state →
      ∃ more, known ≤ more ∧ inv more (perform choice command state).2 ∧
        assertion more task (rest (perform choice command state).1))
    {pool : Pool ι σ κ ρ τ} {events : List (Event ι τ χ)}
    (hinit : ∃ known, Guarded inv assertion known pool)
    (hmeets : Transition.StepsMeet (step program fits perform) (Meets condition) pool events) :
    Transition.Throughout (step program fits perform)
      (fun pool => ∃ known, Guarded inv assertion known pool) pool events := by
  refine Transition.throughout_of_keeps ?_ hinit hmeets
  rintro pool event next ⟨known, hguarded⟩ hcondition hstep
  rcases step_cases program fits perform hstep with
    ⟨place, task, rfl, _, rfl⟩ | ⟨place, choice, task, command, rest, rfl, hrunning, rfl⟩ |
    ⟨place, rfl, rfl⟩
  · refine ⟨known, hguarded.shared, running_update hguarded.running ?_⟩
    rintro task' rest' heq
    obtain ⟨rfl, rfl⟩ := Thread.mk.inj (Option.some.inj heq)
    exact hstart known task
  · obtain ⟨more, hle, hinv, hassertion⟩ := hcall known pool.shared choice task command rest
      hguarded.shared (hguarded.running place task _ hrunning)
      (hcondition command (by rw [called, hrunning]; rfl))
    refine ⟨more, hinv, running_update ?_ ?_⟩
    · exact fun other task' rest' hother =>
        hmono known more task' rest' hle (hguarded.running other task' rest' hother)
    · rintro task' rest' heq
      obtain ⟨rfl, rfl⟩ := Thread.mk.inj (Option.some.inj heq)
      exact hassertion
  · exact ⟨known, hguarded.shared, running_update hguarded.running nofun⟩

end Interference

end Pool

end OpenBalenaVpn
