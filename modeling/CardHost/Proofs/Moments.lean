import CardHost.Proofs.Requests

/-!
# The moments of a run

Some properties are about one request in the middle of a run: what came before it, and what the
platform looked like when it was asked.  `Prog.moments` lists the requests of a run in order, each
with the system it was asked in.  Calls that interrupt a register write do not show as moments, but
what they change shows in the systems of the later ones.

The moments of a sequence are the moments of its parts (`moments_bind`), and `Obeys` says of every
moment what it says of the tree.
-/

namespace CardHost

/-- A request with the system in which it was asked. -/
structure Moment (machine : Machine ι) (σ ρ : Type) where
  request : Request σ
  system : System machine σ ρ

namespace Prog

variable {machine : Machine ι}

/-- The requests of a run in order. -/
def momentsWith (serve : ι → System machine σ ρ → Except Halt (System machine σ ρ)) :
    Prog σ α → System machine σ ρ → List (Moment machine σ ρ)
  | done _, _ => []
  | fault, _ => []
  | stuck, _ => []
  | ask request next, system =>
    ⟨request, system⟩ ::
      match system.answer request with
      | (reply, none, after) => (next reply).momentsWith serve after
      | (reply, some call, after) =>
        match serve call after with
        | .ok served => (next reply).momentsWith serve served
        | .error _ => []

/-- The requests of a run with interruptions nested up to a depth. -/
def moments (handler : ι → Prog σ ρ) (depth : Nat) (program : Prog σ α)
    (system : System machine σ ρ) : List (Moment machine σ ρ) :=
  program.momentsWith (serveAt handler depth) system

variable (handler : ι → Prog σ ρ) (depth : Nat)

/-- The moments of a sequence are those of its parts. -/
theorem moments_bind (program : Prog σ α) (next : α → Prog σ β) (system : System machine σ ρ) :
    (program.bind next).moments handler depth system =
      program.moments handler depth system ++
        match program.run handler depth system with
        | .ok (value, after) => (next value).moments handler depth after
        | .error _ => [] := by
  unfold moments run
  induction program generalizing system with
  | done value => rfl
  | fault => rfl
  | stuck => rfl
  | ask request reply ih =>
      simp only [bind, momentsWith, runWith, List.cons_append, List.cons.injEq, true_and]
      rcases system.answer request with ⟨answer, _ | call, after⟩
      · exact ih answer after
      · dsimp only
        cases serveAt handler depth call after with
        | ok served => exact ih answer served
        | error halt => rfl

/-- The moments of a sequence whose first part ends. -/
theorem moments_bind_of_run {program : Prog σ α} {next : α → Prog σ β}
    {system after : System machine σ ρ} {value : α}
    (ran : program.run handler depth system = .ok (value, after)) :
    (program.bind next).moments handler depth system =
      program.moments handler depth system ++ (next value).moments handler depth after := by
  rw [moments_bind, ran]

/-- What shows of a sequence is what shows of its parts. -/
theorem filterMap_moments_bind {program : Prog σ α} {next : α → Prog σ β}
    {system after : System machine σ ρ} {value : α} (see : Moment machine σ ρ → Option γ)
    (ran : program.run handler depth system = .ok (value, after)) :
    ((program.bind next).moments handler depth system).filterMap see =
      (program.moments handler depth system).filterMap see ++
        ((next value).moments handler depth after).filterMap see := by
  rw [moments_bind_of_run handler depth ran, List.filterMap_append]

/-- Shaping the value of a program adds no moments. -/
theorem moments_bind_done (program : Prog σ α) (shape : α → β) (system : System machine σ ρ) :
    (program.bind fun value => done (shape value)).moments handler depth system =
      program.moments handler depth system := by
  rw [moments_bind]
  cases program.run handler depth system with
  | ok ended => exact List.append_nil _
  | error halt => exact List.append_nil _

/-- What holds of every request a program may make holds of every moment. -/
theorem Obeys.of_mem_moments {allowed : Request σ → Prop} {post : α → Prop}
    {program : Prog σ α} (h : program.Obeys allowed post) (system : System machine σ ρ) :
    ∀ moment ∈ program.moments handler depth system, allowed moment.request := by
  unfold moments
  induction program generalizing system with
  | done value => simp [momentsWith]
  | fault => simp [momentsWith]
  | stuck => simp [momentsWith]
  | ask request next ih =>
      intro moment hmem
      rw [momentsWith] at hmem
      rcases List.mem_cons.mp hmem with rfl | hlater
      · exact h.1
      · split at hlater
        · exact ih _ (h.2 _) _ moment hlater
        · split at hlater
          · exact ih _ (h.2 _) _ moment hlater
          · cases hlater

end Prog

/-- A list around one of its elements. -/
theorem split_at {list : List α} {index : Nat} (h : index < list.length) :
    list = list.take index ++ list.get ⟨index, h⟩ :: list.drop (index + 1) := by
  have hdrop := List.getElem_cons_drop h
  rw [List.get_eq_getElem, hdrop, List.take_append_drop]

/-- An element of two lists lies in the second, behind the first, or in the first. -/
theorem split_append {front back before after : List α} {element : α}
    (h : front ++ back = before ++ element :: after) :
    (∃ between, before = front ++ between ∧ back = between ++ element :: after)
      ∨ ∃ between, front = before ++ element :: between ∧ after = between ++ back := by
  rcases List.append_eq_append_iff.mp h with ⟨between, hbefore, hback⟩ | ⟨between, rfl, hafter⟩
  · exact .inl ⟨between, hbefore, hback⟩
  · cases between with
    | nil =>
        rw [List.append_nil]
        exact .inl ⟨[], (List.append_nil _).symm, hafter.symm⟩
    | cons first rest =>
        cases hafter
        exact .inr ⟨rest, rfl, rfl⟩

/-- An element of a kind that the first list does not have lies behind it. -/
theorem split_behind (kind : α → Prop) {front back before after : List α} {element : α}
    (h : front ++ back = before ++ element :: after) (hfront : ∀ x ∈ front, ¬ kind x)
    (helement : kind element) :
    ∃ between, before = front ++ between ∧ back = between ++ element :: after := by
  rcases split_append h with hbehind | ⟨between, rfl, -⟩
  · exact hbehind
  · exact (hfront element (by simp) helement).elim

/-- An element of a kind that the second list does not have lies in front of it. -/
theorem split_before (kind : α → Prop) {front back before after : List α} {element : α}
    (h : front ++ back = before ++ element :: after) (hback : ∀ x ∈ back, ¬ kind x)
    (helement : kind element) :
    ∃ between, front = before ++ element :: between ∧ after = between ++ back := by
  rcases split_append h with ⟨between, -, rfl⟩ | hbefore
  · exact (hback element (by simp) helement).elim
  · exact hbefore

/-- A list splits at its only element of a kind in one way. -/
theorem split_unique {kind : α → Prop} {front back front' back' : List α} {middle middle' : α}
    (h : front ++ middle :: back = front' ++ middle' :: back')
    (hfront : ∀ x ∈ front, ¬ kind x) (hback : ∀ x ∈ back, ¬ kind x) (hmiddle : kind middle') :
    front' = front ∧ middle' = middle := by
  rcases List.append_eq_append_iff.mp h with ⟨between, rfl, hlist⟩ | ⟨between, rfl, hlist⟩
  · cases between with
    | nil =>
        cases hlist
        exact ⟨List.append_nil _, rfl⟩
    | cons first rest =>
        cases hlist
        exact (hback middle' (by simp) hmiddle).elim
  · cases between with
    | nil =>
        cases hlist
        exact ⟨(List.append_nil _).symm, rfl⟩
    | cons first rest =>
        cases hlist
        exact (hfront middle' (by simp) hmiddle).elim

end CardHost
