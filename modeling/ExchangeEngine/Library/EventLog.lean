import Mathlib.Data.List.Induction

/-!
# Logs of events

What a log of events says about the time since one of them: some event satisfies `p`, and none after
it satisfies `q`. A log is read from its end, where the last event decides or changes nothing.
-/

namespace EventLog

variable {ε : Type*} {p q : ε → Prop} {log : List ε} {e : ε}

/-- Some event satisfies `p`, and none since then satisfies `q`. -/
def Since (p q : ε → Prop) (log : List ε) : Prop :=
  ∃ before e after, log = before ++ e :: after ∧ p e ∧ ∀ e' ∈ after, ¬ q e'

lemma not_since_nil : ¬ Since p q [] := by
  rintro ⟨before, e, after, hlog, -⟩
  exact absurd hlog (by simp)

/-- The last event satisfies `p`, or it satisfies no `q` and the log was there before. -/
lemma since_append_singleton : Since p q (log ++ [e]) ↔ p e ∨ Since p q log ∧ ¬ q e := by
  constructor
  · rintro ⟨before, a, after, hlog, hp, hq⟩
    induction after using List.reverseRecOn with
    | nil =>
      obtain ⟨-, hlast⟩ := List.append_inj' hlog rfl
      rw [List.singleton_inj.mp hlast]
      exact Or.inl hp
    | append_singleton after last _ =>
      rw [← List.cons_append, ← List.append_assoc] at hlog
      obtain ⟨rfl, hlast⟩ := List.append_inj' hlog rfl
      rw [List.singleton_inj.mp hlast]
      refine Or.inr ⟨⟨before, a, after, rfl, hp, ?_⟩, hq last (by simp)⟩
      exact fun e' he' => hq e' (List.mem_append_left _ he')
  · rintro (hp | ⟨⟨before, a, after, rfl, hp, hq⟩, hlast⟩)
    · exact ⟨log, e, [], rfl, hp, fun e' he' => absurd he' List.not_mem_nil⟩
    · refine ⟨before, a, after ++ [e], by simp, hp, fun e' he' => ?_⟩
      rcases List.mem_append.mp he' with he' | he'
      · exact hq e' he'
      · rwa [List.mem_singleton.mp he']

end EventLog
