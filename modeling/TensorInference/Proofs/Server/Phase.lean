import TensorInference.Proofs.Server.Step

/-!
# The phase after a run

A server is stopped by three actions in a fixed order, and no action takes a phase back. Which
phase a run has reached is therefore told by which of these actions are among its own.
-/

namespace TensorInference.Server

/-- How a phase stands to the actions that led to it. -/
structure Phase.Reached (phase : Phase) (actions : List Action) : Prop where
  serving : phase = .serving ↔ .beginStop ∉ actions
  exiting : phase.state = .exiting ↔ .announce ∈ actions
  closed : phase.isClosed = true ↔ .close ∈ actions

variable {start server next : State} {action : Action} {actions : List Action}

theorem Phase.state_eq (phase : Phase) : phase.state = .ready ∨ phase.state = .exiting := by
  cases phase with
  | serving | stopping => exact .inl rfl
  | announced | closed | drained | abandoned => exact .inr rfl

namespace Phase.Reached

/-- An action that is none of the three leaves the answers to the three questions alone. -/
theorem of_other {phase later : Phase} (h : Reached phase actions) (hserving : action ≠ .beginStop)
    (hexiting : action ≠ .announce) (hclosed : action ≠ .close)
    (hlater : (later = .serving ↔ phase = .serving) ∧ later.state = phase.state ∧
      later.isClosed = phase.isClosed) : Reached later (actions ++ [action]) where
  serving := by
    rw [hlater.1, h.serving, List.mem_append, List.mem_singleton, or_iff_left hserving.symm]
  exiting := by
    rw [hlater.2.1, h.exiting, List.mem_append, List.mem_singleton, or_iff_left hexiting.symm]
  closed := by
    rw [hlater.2.2, h.closed, List.mem_append, List.mem_singleton, or_iff_left hclosed.symm]

theorem step (hstep : Step server action next) (h : Reached server.phase actions) :
    Reached next.phase (actions ++ [action]) := by
  cases hstep with
  | beginStop hphase =>
    obtain ⟨-, hexiting, hclosed⟩ := hphase ▸ h
    exact ⟨by simp, by simpa [Phase.state] using hexiting,
      by simpa [Phase.isClosed] using hclosed⟩
  | announce hphase =>
    obtain ⟨hserving, -, hclosed⟩ := hphase ▸ h
    exact ⟨by simpa using hserving, by simp [Phase.state],
      by simpa [Phase.isClosed] using hclosed⟩
  | close hphase =>
    obtain ⟨hserving, hexiting, -⟩ := hphase ▸ h
    exact ⟨by simpa using hserving, by simpa [Phase.state] using hexiting,
      by simp [Phase.isClosed]⟩
  | observeIdle hphase _ =>
    refine h.of_other nofun nofun nofun ⟨?_, ?_, ?_⟩
    · rw [hphase]
      exact ⟨nofun, nofun⟩
    · rw [hphase]
      rfl
    · rw [hphase]
      rfl
  | giveUp hphase =>
    refine h.of_other nofun nofun nofun ⟨?_, ?_, ?_⟩
    · rw [hphase]
      exact ⟨nofun, nofun⟩
    · rw [hphase]
      rfl
    · rw [hphase]
      rfl
  | _ => exact h.of_other nofun nofun nofun ⟨.rfl, rfl, rfl⟩

theorem of_run (hphase : start.phase = .serving) (h : start.run actions = some server) :
    Reached server.phase actions :=
  @State.run_induction server start (fun actions server ↦ Reached server.phase actions)
    (by rw [hphase]; exact ⟨by simp, by simp [Phase.state], by simp [Phase.isClosed]⟩)
    (fun _ hbefore hact ↦ hbefore.step (State.step_of_act hact)) actions h

end Phase.Reached

end TensorInference.Server
