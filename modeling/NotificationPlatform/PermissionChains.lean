import NotificationPlatform.AdminUi
import NotificationPlatform.Lib.Fallback

/-!
# Permissions that stand in for each other in turn

The broad permission of a granular one may be granular itself. `HasPermission` looks up one broad
permission and no more, so what implies a permission does not always imply what that implies.
-/

namespace NotificationPlatform

open Lib.Fallback

/-- A granular permission, its broad permission and the broad permission of that one. -/
def chains (table : List (String × String)) : List (String × String × String) :=
  table.flatMap fun entry => (table.lookup entry.2).toList.map fun c => (entry.1, entry.2, c)

theorem mem_chains {table : List (String × String)} {g b c : String}
    (hgb : table.lookup g = some b) (hbc : table.lookup b = some c) : (g, b, c) ∈ chains table := by
  obtain ⟨before, after, htable, -⟩ := List.lookup_eq_some_iff.mp hgb
  refine List.mem_flatMap.mpr ⟨(g, b), ?_, ?_⟩
  · rw [htable]
    simp
  · simp [hbc]

theorem chains_granularToBroad : chains granularToBroad =
    [("integration.view", "api_keys.view", "api_keys.manage"),
     ("integration.test", "notifications.send", "notifications.manage"),
     ("integration.view_api_docs", "integration.view", "api_keys.view")] := by
  decide +kernel

def broadOf (permission : String) : Option String := granularToBroad.lookup permission

theorem hasPermission_iff_allows {p : Principal} (hplatform : p.isPlatform = false)
    (permission : String) : hasPermission p permission = true ↔
      Allows broadOf (· ∈ p.permissions) permission := by
  rw [hasPermission_eq_heldByTable, hplatform, Bool.false_or, heldByTable]
  simp [Allows, broadOf, Option.any_eq_true]

/-- Who holds the last permission of a chain holds one of the other two. -/
def HoldsChains (held : List String) : Prop :=
  ("api_keys.manage" ∈ held → "integration.view" ∈ held ∨ "api_keys.view" ∈ held) ∧
  ("notifications.manage" ∈ held → "integration.test" ∈ held ∨ "notifications.send" ∈ held) ∧
  ("api_keys.view" ∈ held → "integration.view_api_docs" ∈ held ∨ "integration.view" ∈ held)

theorem inherits_iff_holdsChains (held : List String) :
    Inherits broadOf (· ∈ held) ↔ HoldsChains held := by
  rw [inherits_iff]
  constructor
  · intro h
    refine ⟨?_, ?_, ?_⟩
    · exact h "integration.view" "api_keys.view" "api_keys.manage" (by decide) (by decide)
    · exact h "integration.test" "notifications.send" "notifications.manage" (by decide) (by decide)
    · exact h "integration.view_api_docs" "integration.view" "api_keys.view" (by decide) (by decide)
  · rintro ⟨hview, htest, hdocs⟩ g b c hgb hbc hc
    have hmem := mem_chains hgb hbc
    rw [chains_granularToBroad] at hmem
    simp only [List.mem_cons, Prod.mk.injEq, List.not_mem_nil, or_false] at hmem
    rcases hmem with ⟨rfl, rfl, rfl⟩ | ⟨rfl, rfl, rfl⟩ | ⟨rfl, rfl, rfl⟩
    · exact hview hc
    · exact htest hc
    · exact hdocs hc

/-- What a permission implies, it implies through any number of broad permissions, just when the
principal holds no chain by its last permission alone. -/
theorem implication_transitive_iff (p : Principal) (hplatform : p.isPlatform = false) :
    ((∀ g b, broadOf g = some b → hasPermission p b = true →
        hasPermission p g = true) ∧
      ∀ k, hasPermission p k = true ↔
        ∃ k', Leads broadOf k k' ∧ k' ∈ p.permissions) ↔
      HoldsChains p.permissions := by
  have hinherits : (∀ g b, broadOf g = some b → hasPermission p b = true →
      hasPermission p g = true) ↔ Inherits broadOf (· ∈ p.permissions) := by
    simp only [hasPermission_iff_allows hplatform, Inherits]
  have hclosed : (∀ k, hasPermission p k = true ↔
      ∃ k', Leads broadOf k k' ∧ k' ∈ p.permissions) ↔
        Closed broadOf (· ∈ p.permissions) := by
    simp only [hasPermission_iff_allows hplatform, Closed]
  rw [hinherits, hclosed, closed_iff_inherits, and_self]
  exact inherits_iff_holdsChains p.permissions

theorem implication_transitive_users :
    hasPermission ⟨7, "t1", false, ["users.manage"]⟩ "users.view" = true ↔
      ∃ k', Leads broadOf "users.view" k' ∧ k' ∈ ["users.manage"] :=
  ((implication_transitive_iff ⟨7, "t1", false, ["users.manage"]⟩ rfl).mpr
    (by simp [HoldsChains])).2 "users.view"

/-- Who may manage API keys may view them, and not what viewing them implies. -/
theorem implication_not_transitive : ¬∀ p : Principal, p.isPlatform = false → ∀ g b,
    broadOf g = some b → hasPermission p b = true → hasPermission p g = true := by
  intro h
  have himplied := h ⟨7, "t1", false, ["api_keys.manage"]⟩ rfl "integration.view" "api_keys.view"
    (by decide) (by decide)
  revert himplied
  decide

end NotificationPlatform
