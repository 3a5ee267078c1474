import Mathlib.Data.List.Count
import NotificationPlatform.Lib.Run

/-!
# Spending a ticket once

Parties look a ticket up, hold it when they found it live, spend it, and are accepted or refused.
Spending is not conditional on the ticket being live, so two parties that hold it at a time are
both accepted; when none looks it up while another one holds it, at most one ever is.
-/

namespace Lib.Ticket

inductive Stage where
  | looking
  | holding
  | spent
  | accepted
  | refused
  deriving DecidableEq, Repr

def Stage.engaged : Stage → Bool
  | .holding | .spent | .accepted => true
  | .looking | .refused => false

def Stage.late : Stage → Bool
  | .spent | .accepted => true
  | .looking | .holding | .refused => false

theorem Stage.engaged_of_late {s : Stage} (h : s.late = true) : s.engaged = true := by
  cases s <;> simp_all [Stage.late, Stage.engaged]

/-- One party moves, and the ticket may stop being live. A party engages only in a live ticket that
nobody holds, and the ticket is not live once it is spent. -/
structure Moves (live live' : Prop) (stages : List Stage) (i : Nat) (s s' : Stage) : Prop where
  before : stages[i]? = some s
  unfinished : s ≠ .accepted
  engages : s'.engaged = true → s.engaged = true ∨ live ∧ ∀ x ∈ stages, x ≠ .holding
  spends : s'.late = true → s.late = true ∨ ¬live'
  dies : live' → live

structure Once (live : Prop) (stages : List Stage) : Prop where
  single : stages.countP Stage.engaged ≤ 1
  unspent : live → ∀ x ∈ stages, x.late = false

variable {live live' : Prop} {stages : List Stage} {i : Nat} {s s' : Stage}

theorem Once.move (h : Once live stages) (hmove : Moves live live' stages i s s') :
    Once live' (stages.set i s') where
  single := by
    have hcount := countP_set (p := Stage.engaged) hmove.before s'
    have hsingle := h.single
    by_cases hs' : s'.engaged = true
    · rcases hmove.engages hs' with hs | ⟨hlive, hnone⟩
      · rw [if_pos hs, if_pos hs'] at hcount
        omega
      · -- nobody holds the ticket and nobody has spent it
        have hzero : stages.countP Stage.engaged = 0 := by
          rw [List.countP_eq_zero]
          intro x hx hengaged
          have hlate := h.unspent hlive x hx
          have hholding := hnone x hx
          cases x <;> simp_all [Stage.engaged, Stage.late]
        rw [if_pos hs', hzero] at hcount
        omega
    · rw [if_neg hs'] at hcount
      omega
  unspent := by
    intro hlive' x hx
    rcases List.mem_or_eq_of_mem_set hx with hx | rfl
    · exact h.unspent (hmove.dies hlive') x hx
    · cases hlate : x.late with
      | false => rfl
      | true =>
          rcases hmove.spends hlate with hs | hdead
          · have hbefore := h.unspent (hmove.dies hlive') s (List.mem_of_getElem? hmove.before)
            rw [hs] at hbefore
            exact hbefore.symm ▸ rfl
          · exact absurd hlive' hdead

theorem Once.arrive (h : Once live stages) (hs : s.engaged = false) : Once live (stages ++ [s]) where
  single := by
    have hsingle := h.single
    simp only [List.countP_append, List.countP_singleton, hs]
    exact hsingle
  unspent := by
    intro hlive x hx
    rcases List.mem_append.mp hx with hx | hx
    · exact h.unspent hlive x hx
    · rw [List.mem_singleton.mp hx]
      cases hlate : s.late with
      | false => rfl
      | true => exact absurd (Stage.engaged_of_late hlate) (by simp [hs])

/-- The ticket is dead and nobody is on the way to spending it. -/
structure Settled (live : Prop) (stages : List Stage) : Prop where
  dead : ¬live
  idle : ∀ x ∈ stages, x ≠ .holding ∧ x ≠ .spent

theorem Settled.move (h : Settled live stages) (hmove : Moves live live' stages i s s') :
    Settled live' (stages.set i s') ∧ s' ≠ .accepted := by
  have hs := h.idle s (List.mem_of_getElem? hmove.before)
  have hnot : s.engaged = false := by
    have hunfinished := hmove.unfinished
    cases s <;> simp_all [Stage.engaged]
  have hs' : s'.engaged = false := by
    cases hengaged : s'.engaged with
    | false => rfl
    | true =>
        rcases hmove.engages hengaged with hbefore | ⟨hlive, -⟩
        · simp [hnot] at hbefore
        · exact absurd hlive h.dead
  refine ⟨⟨fun hlive' => h.dead (hmove.dies hlive'), ?_⟩, ?_⟩
  · intro x hx
    rcases List.mem_or_eq_of_mem_set hx with hx | rfl
    · exact h.idle x hx
    · constructor <;> rintro rfl <;> simp [Stage.engaged] at hs'
  · rintro rfl
    simp [Stage.engaged] at hs'

theorem Settled.arrive (h : Settled live stages) (hs : s.engaged = false) :
    Settled live (stages ++ [s]) := by
  refine ⟨h.dead, ?_⟩
  intro x hx
  rcases List.mem_append.mp hx with hx | hx
  · exact h.idle x hx
  · rw [List.mem_singleton.mp hx]
    constructor <;> rintro rfl <;> simp [Stage.engaged] at hs

end Lib.Ticket
