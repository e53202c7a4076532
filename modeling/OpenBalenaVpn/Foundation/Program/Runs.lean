import OpenBalenaVpn.Foundation.Program

namespace OpenBalenaVpn.Program

variable {κ : Type} {ρ : κ → Type} {α β ε σ : Type}

-- A command with the reply that it got.
structure Call (κ : Type) (ρ : κ → Type) where
  command : κ
  reply : ρ command

-- A run of a program, whatever the replies are.
inductive Runs : Program κ ρ α → List (Call κ ρ) → α → Prop where
  | done (value : α) : Runs (.done value) [] value
  | call {command : κ} {next : ρ command → Program κ ρ α} {calls : List (Call κ ρ)} {value : α}
      (reply : ρ command) (h : Runs (next reply) calls value) :
      Runs (.call command next) (⟨command, reply⟩ :: calls) value

section Runs

theorem runs_pure_iff {first value : α} {calls : List (Call κ ρ)} :
    Runs (pure first : Program κ ρ α) calls value ↔ calls = [] ∧ value = first := by
  constructor
  · intro h
    cases h
    exact ⟨rfl, rfl⟩
  · rintro ⟨rfl, rfl⟩
    exact .done _

theorem runs_call_iff {command : κ} {next : ρ command → Program κ ρ α} {calls : List (Call κ ρ)}
    {value : α} : Runs (.call command next) calls value ↔
      ∃ reply later, calls = ⟨command, reply⟩ :: later ∧ Runs (next reply) later value := by
  constructor
  · intro h
    cases h with
    | call reply hnext => exact ⟨reply, _, rfl, hnext⟩
  · rintro ⟨reply, later, rfl, hnext⟩
    exact .call reply hnext

theorem runs_bind_iff {program : Program κ ρ α} {next : α → Program κ ρ β}
    {calls : List (Call κ ρ)} {value : β} : Runs (program >>= next) calls value ↔
      ∃ middle before after, calls = before ++ after ∧ Runs program before middle ∧
        Runs (next middle) after value := by
  change Runs (program.bind next) calls value ↔ _
  induction program generalizing calls with
  | done first =>
      constructor
      · exact fun h => ⟨first, [], calls, rfl, .done first, h⟩
      · rintro ⟨middle, before, after, rfl, hfirst, hnext⟩
        cases hfirst
        exact hnext
  | call command rest ih =>
      rw [Program.bind, runs_call_iff]
      constructor
      · rintro ⟨reply, later, rfl, hlater⟩
        obtain ⟨middle, before, after, rfl, hbefore, hafter⟩ := (ih reply).mp hlater
        exact ⟨middle, _ :: before, after, rfl, .call reply hbefore, hafter⟩
      · rintro ⟨middle, before, after, rfl, hbefore, hafter⟩
        obtain ⟨reply, later, rfl, hlater⟩ := runs_call_iff.mp hbefore
        exact ⟨reply, later ++ after, rfl,
          (ih reply).mpr ⟨middle, later, after, rfl, hlater, hafter⟩⟩

-- In an environment it has the run that its replies make.
theorem runs_exec (perform : (command : κ) → σ → ρ command × σ) (program : Program κ ρ α)
    (state : σ) : ∃ made : List (Call κ ρ), made.map (·.command) = calls perform program state ∧
      Runs program made (exec perform program state).1 := by
  induction program generalizing state with
  | done value => exact ⟨[], rfl, .done value⟩
  | call command next ih =>
      obtain ⟨made, hmade, h⟩ := ih (perform command state).1 (perform command state).2
      exact ⟨⟨command, (perform command state).1⟩ :: made, congrArg (command :: ·) hmade,
        .call _ h⟩

end Runs

section Errors

-- A call that does not throw by itself.
def perform (command : κ) : ExceptT ε (Program κ ρ) (ρ command) :=
  ExceptT.mk (.call command fun reply => .done (.ok reply))

theorem runs_perform_iff {command : κ} {calls : List (Call κ ρ)}
    {result : Except ε (ρ command)} : Runs (perform command).run calls result ↔
      ∃ reply, calls = [⟨command, reply⟩] ∧ result = .ok reply := by
  constructor
  · intro h
    obtain ⟨reply, later, rfl, hlater⟩ := runs_call_iff.mp h
    cases hlater
    exact ⟨reply, rfl, rfl⟩
  · rintro ⟨reply, rfl, rfl⟩
    exact .call reply (.done _)

theorem runs_throw_iff {error : ε} {calls : List (Call κ ρ)} {result : Except ε α} :
    Runs (throw error : ExceptT ε (Program κ ρ) α).run calls result ↔
      calls = [] ∧ result = .error error :=
  runs_pure_iff

theorem runs_ok_iff {value : α} {calls : List (Call κ ρ)} {result : Except ε α} :
    Runs (pure value : ExceptT ε (Program κ ρ) α).run calls result ↔
      calls = [] ∧ result = .ok value :=
  runs_pure_iff

-- What comes after an error is left out.
theorem runs_seq_iff {program : ExceptT ε (Program κ ρ) α}
    {next : α → ExceptT ε (Program κ ρ) β} {calls : List (Call κ ρ)} {result : Except ε β} :
    Runs (program >>= next).run calls result ↔
      (∃ error, result = .error error ∧ Runs program.run calls (.error error)) ∨
        ∃ value before after, calls = before ++ after ∧ Runs program.run before (.ok value) ∧
          Runs (next value).run after result := by
  change Runs (program.run >>= _) calls result ↔ _
  rw [runs_bind_iff]
  constructor
  · rintro ⟨middle, before, after, rfl, hbefore, hafter⟩
    cases middle with
    | error error =>
        obtain ⟨rfl, rfl⟩ := runs_pure_iff.mp hafter
        exact Or.inl ⟨error, rfl, by rwa [List.append_nil]⟩
    | ok value => exact Or.inr ⟨value, before, after, rfl, hbefore, hafter⟩
  · rintro (⟨error, rfl, hrun⟩ | ⟨value, before, after, rfl, hbefore, hafter⟩)
    · exact ⟨.error error, calls, [], (List.append_nil calls).symm, hrun, .done _⟩
    · exact ⟨.ok value, before, after, rfl, hbefore, hafter⟩

-- The handler runs after an error only.
theorem runs_catch_iff {program : ExceptT ε (Program κ ρ) α}
    {handle : ε → ExceptT ε (Program κ ρ) α} {calls : List (Call κ ρ)} {result : Except ε α} :
    Runs (tryCatch program handle).run calls result ↔
      (∃ value, result = .ok value ∧ Runs program.run calls (.ok value)) ∨
        ∃ error before after, calls = before ++ after ∧ Runs program.run before (.error error) ∧
          Runs (handle error).run after result := by
  change Runs (program.run >>= _) calls result ↔ _
  rw [runs_bind_iff]
  constructor
  · rintro ⟨middle, before, after, rfl, hbefore, hafter⟩
    cases middle with
    | error error => exact Or.inr ⟨error, before, after, rfl, hbefore, hafter⟩
    | ok value =>
        obtain ⟨rfl, rfl⟩ := runs_pure_iff.mp hafter
        exact Or.inl ⟨value, rfl, by rwa [List.append_nil]⟩
  · rintro (⟨value, rfl, hrun⟩ | ⟨error, before, after, rfl, hbefore, hafter⟩)
    · exact ⟨.ok value, calls, [], (List.append_nil calls).symm, hrun, .done _⟩
    · exact ⟨.error error, before, after, rfl, hbefore, hafter⟩

end Errors

section Yields

-- What holds of the calls and of the result of every run.
def Yields (program : ExceptT ε (Program κ ρ) α)
    (post : List (Call κ ρ) → Except ε α → Prop) : Prop :=
  ∀ calls result, Runs program.run calls result → post calls result

variable {program : ExceptT ε (Program κ ρ) α} {post : List (Call κ ρ) → Except ε α → Prop}

theorem Yields.imp {weaker : List (Call κ ρ) → Except ε α → Prop} (h : Yields program post)
    (himp : ∀ calls result, post calls result → weaker calls result) : Yields program weaker :=
  fun calls result hrun => himp calls result (h calls result hrun)

theorem Yields.pure {value : α} (h : post [] (.ok value)) :
    Yields (Pure.pure value : ExceptT ε (Program κ ρ) α) post := by
  intro calls result hrun
  obtain ⟨rfl, rfl⟩ := runs_ok_iff.mp hrun
  exact h

theorem Yields.throw {error : ε} (h : post [] (.error error)) :
    Yields (MonadExcept.throw error : ExceptT ε (Program κ ρ) α) post := by
  intro calls result hrun
  obtain ⟨rfl, rfl⟩ := runs_throw_iff.mp hrun
  exact h

theorem Yields.perform {command : κ} {post : List (Call κ ρ) → Except ε (ρ command) → Prop}
    (h : ∀ reply, post [⟨command, reply⟩] (.ok reply)) :
    Yields (Program.perform command) post := by
  intro calls result hrun
  obtain ⟨reply, rfl, rfl⟩ := runs_perform_iff.mp hrun
  exact h reply

theorem Yields.seq {next : α → ExceptT ε (Program κ ρ) β}
    {last : List (Call κ ρ) → Except ε β → Prop} (h : Yields program post)
    (hok : ∀ before value, post before (.ok value) →
      Yields (next value) fun after result => last (before ++ after) result)
    (herror : ∀ before error, post before (.error error) → last before (.error error)) :
    Yields (program >>= next) last := by
  intro calls result hrun
  rcases runs_seq_iff.mp hrun with
    ⟨error, rfl, hfirst⟩ | ⟨value, before, after, rfl, hfirst, hnext⟩
  · exact herror calls error (h calls _ hfirst)
  · exact hok before value (h before _ hfirst) after result hnext

-- After a call the program goes on with its reply.
theorem Yields.perform_seq {command : κ} {next : ρ command → ExceptT ε (Program κ ρ) β}
    {last : List (Call κ ρ) → Except ε β → Prop}
    (h : ∀ reply, Yields (next reply) fun after result => last (⟨command, reply⟩ :: after) result) :
    Yields (Program.perform command >>= next) last := by
  intro calls result hrun
  rcases runs_seq_iff.mp hrun with
    ⟨error, rfl, hfirst⟩ | ⟨reply, before, after, rfl, hfirst, hnext⟩
  · obtain ⟨_, _, hreply⟩ := runs_perform_iff.mp hfirst
    cases hreply
  · obtain ⟨_, rfl, hreply⟩ := runs_perform_iff.mp hfirst
    obtain rfl := Except.ok.inj hreply
    exact h reply after result hnext

theorem Yields.catch {handle : ε → ExceptT ε (Program κ ρ) α}
    {last : List (Call κ ρ) → Except ε α → Prop} (h : Yields program post)
    (hok : ∀ calls value, post calls (.ok value) → last calls (.ok value))
    (herror : ∀ before error, post before (.error error) →
      Yields (handle error) fun after result => last (before ++ after) result) :
    Yields (tryCatch program handle) last := by
  intro calls result hrun
  rcases runs_catch_iff.mp hrun with
    ⟨value, rfl, hfirst⟩ | ⟨error, before, after, rfl, hfirst, hnext⟩
  · exact hok calls value (h calls _ hfirst)
  · exact herror before error (h before _ hfirst) after result hnext

end Yields

end OpenBalenaVpn.Program
