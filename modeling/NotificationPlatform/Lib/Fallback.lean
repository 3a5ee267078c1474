import Mathlib.Logic.Relation

/-!
# A key and its stand-in

Some keys have a stand-in, which may have one itself. A check looks for a key or for its stand-in
and goes no further. This module says when such a check agrees with the one that follows the
stand-ins to their end.
-/

namespace Lib.Fallback

variable {α : Type} (broad : α → Option α) (held : α → Prop)

def Allows (k : α) : Prop := held k ∨ ∃ b, broad k = some b ∧ held b

/-- `k'` is reached from `k` by following stand-ins, zero or more times. -/
def Leads : α → α → Prop := Relation.ReflTransGen fun k b => broad k = some b

def Inherits : Prop := ∀ g b, broad g = some b → Allows broad held b → Allows broad held g

/-- A key is allowed where anything that it leads to is held, and nowhere else. -/
def Closed : Prop := ∀ k, Allows broad held k ↔ ∃ k', Leads broad k k' ∧ held k'

variable {broad held}

theorem Allows.leads {k : α} (h : Allows broad held k) : ∃ k', Leads broad k k' ∧ held k' := by
  rcases h with hk | ⟨b, hb, hheld⟩
  · exact ⟨k, .refl, hk⟩
  · exact ⟨b, .single hb, hheld⟩

theorem Inherits.allows_of_leads (h : Inherits broad held) {k k' : α} (hleads : Leads broad k k')
    (hheld : held k') : Allows broad held k := by
  induction hleads using Relation.ReflTransGen.head_induction_on with
  | refl => exact .inl hheld
  | head hstep _ ih => exact h _ _ hstep ih

theorem closed_iff_inherits : Closed broad held ↔ Inherits broad held := by
  constructor
  · intro h g b hgb hb
    obtain ⟨k', hleads, hheld⟩ := hb.leads
    exact (h g).mpr ⟨k', hleads.head hgb, hheld⟩
  · intro h k
    constructor
    · exact Allows.leads
    · rintro ⟨k', hleads, hheld⟩
      exact h.allows_of_leads hleads hheld

theorem inherits_iff : Inherits broad held ↔
    ∀ g b c, broad g = some b → broad b = some c → held c → held g ∨ held b := by
  constructor
  · intro h g b c hgb hbc hc
    rcases h g b hgb (.inr ⟨c, hbc, hc⟩) with hg | ⟨b', hb', hheld⟩
    · exact .inl hg
    · rw [hgb] at hb'
      obtain rfl := Option.some.inj hb'
      exact .inr hheld
  · intro h g b hgb hb
    rcases hb with hheld | ⟨c, hbc, hc⟩
    · exact .inr ⟨b, hgb, hheld⟩
    · rcases h g b c hgb hbc hc with hg | hheld
      · exact .inl hg
      · exact .inr ⟨b, hgb, hheld⟩

end Lib.Fallback
