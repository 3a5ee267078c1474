import Mathlib.Data.List.Basic
import Mathlib.Logic.Function.Basic

/-!
# Editors of a shared value

Each editor reads the shared value, edits its copy and writes the copy back, in two separate
steps. While nobody reads as long as another editor holds a copy, the edits take effect one after
the other; edits of different parts then all survive.
-/

namespace Lib.SharedEdits

variable {σ ι κ β : Type}

inductive Stage (σ : Type) where
  | idle
  | holding (copy : σ)
  | done

structure State (σ ι : Type) where
  value : σ
  stage : ι → Stage σ

inductive Event (ι : Type) where
  | read (i : ι)
  | write (i : ι)

def step [DecidableEq ι] (edit : ι → σ → σ) (s : State σ ι) : Event ι → Option (State σ ι)
  | .read i =>
      match s.stage i with
      | .idle => some { s with stage := Function.update s.stage i (.holding s.value) }
      | _ => none
  | .write i =>
      match s.stage i with
      | .holding copy => some ⟨edit i copy, Function.update s.stage i .done⟩
      | _ => none

def Exclusive (s : State σ ι) : Event ι → Prop
  | .read _ => ∀ j copy, s.stage j ≠ .holding copy
  | .write _ => True

/-- The editors that are done have made their edits one after the other, and a copy is at most
one and is up to date. -/
def Serial (edit : ι → σ → σ) (start : σ) (s : State σ ι) : Prop :=
  (∃ order : List ι, order.Nodup ∧ (∀ i, i ∈ order ↔ s.stage i = .done) ∧
    s.value = order.foldl (fun v i => edit i v) start) ∧
  (∀ i copy, s.stage i = .holding copy → copy = s.value) ∧
  ∀ i j copy copy', s.stage i = .holding copy → s.stage j = .holding copy' → i = j

variable {edit : ι → σ → σ} {start : σ} {s s' : State σ ι}

theorem serial_idle (edit : ι → σ → σ) (start : σ) :
    Serial edit start ⟨start, fun _ : ι => .idle⟩ :=
  ⟨⟨[], by simp⟩, by simp, by simp⟩

theorem Serial.step [DecidableEq ι] {e : Event ι} (h : Serial edit start s) (hok : Exclusive s e)
    (hstep : step edit s e = some s') : Serial edit start s' := by
  obtain ⟨⟨order, hnodup, hdone, hvalue⟩, hcurrent, hone⟩ := h
  cases e with
  | read i =>
      simp only [SharedEdits.step] at hstep
      split at hstep
      · next hidle =>
          obtain rfl := Option.some.inj hstep
          have hholder : ∀ j copy, Function.update s.stage i (.holding s.value) j =
              .holding copy → j = i ∧ copy = s.value := by
            intro j copy hj
            by_cases hji : j = i
            · subst j
              rw [Function.update_self] at hj
              exact ⟨rfl, (Stage.holding.inj hj).symm⟩
            · rw [Function.update_of_ne hji] at hj
              exact absurd hj (hok j copy)
          refine ⟨⟨order, hnodup, fun j => ?_, hvalue⟩, fun j copy hj => (hholder j copy hj).2,
            fun j j' copy copy' hj hj' => ?_⟩
          · rw [hdone j]
            by_cases hji : j = i
            · subst j
              simp [hidle]
            · simp [hji]
          · rw [(hholder j copy hj).1, (hholder j' copy' hj').1]
      · simp at hstep
  | write i =>
      simp only [SharedEdits.step] at hstep
      split at hstep
      · next copy hcopy =>
          obtain rfl := Option.some.inj hstep
          have hnone : ∀ j copy', Function.update s.stage i .done j ≠ .holding copy' := by
            intro j copy' hj
            by_cases hji : j = i
            · subst j
              simp at hj
            · rw [Function.update_of_ne hji] at hj
              exact hji (hone j i copy' copy hj hcopy)
          have hnew : i ∉ order := by
            rw [hdone i, hcopy]
            simp
          refine ⟨⟨order ++ [i], ?_, fun j => ?_, ?_⟩, fun j copy' hj => absurd hj (hnone j copy'),
            fun j _ copy' _ hj _ => absurd hj (hnone j copy')⟩
          · rw [List.nodup_append]
            refine ⟨hnodup, by simp, fun a ha b hb => ?_⟩
            obtain rfl := List.mem_singleton.mp hb
            rintro rfl
            exact hnew ha
          · rw [List.mem_append, List.mem_singleton, hdone j]
            by_cases hji : j = i
            · subst j
              simp
            · simp [hji]
          · rw [List.foldl_append, ← hvalue, ← hcurrent i copy hcopy]
            rfl
      · simp at hstep

/-! ## Edits of different parts -/

section

variable {get : σ → κ → β} {own : ι → List (κ × β)}

structure SetsOwn (get : σ → κ → β) (own : ι → List (κ × β)) (edit : ι → σ → σ) : Prop where
  set : ∀ i v key b, (key, b) ∈ own i → get (edit i v) key = b
  keep : ∀ i v key, key ∉ (own i).map Prod.fst → get (edit i v) key = get v key

theorem SetsOwn.foldl_of_notMem (h : SetsOwn get own edit) {order : List ι} {key : κ}
    (hnot : ∀ i ∈ order, key ∉ (own i).map Prod.fst) (v : σ) :
    get (order.foldl (fun v i => edit i v) v) key = get v key := by
  induction order generalizing v with
  | nil => rfl
  | cons i rest ih =>
      have hrest := ih (fun j hj => hnot j (List.mem_cons_of_mem _ hj)) (edit i v)
      rw [List.foldl_cons, hrest, h.keep i v key (hnot i (by simp))]

theorem SetsOwn.foldl_of_mem (h : SetsOwn get own edit) {order : List ι}
    (hdisjoint : order.Pairwise fun i j =>
      List.Disjoint ((own i).map Prod.fst) ((own j).map Prod.fst))
    {i : ι} (hi : i ∈ order) {key : κ} {b : β} (hmem : (key, b) ∈ own i) (v : σ) :
    get (order.foldl (fun v i => edit i v) v) key = b := by
  induction order generalizing v with
  | nil => simp at hi
  | cons j rest ih =>
      obtain ⟨hfirst, hrest⟩ := List.pairwise_cons.mp hdisjoint
      have hkey : key ∈ (own i).map Prod.fst := List.mem_map_of_mem hmem
      rcases List.mem_cons.mp hi with rfl | hi
      · have hlater : ∀ j ∈ rest, key ∉ (own j).map Prod.fst := fun j hj hjkey =>
          hfirst j hj hkey hjkey
        rw [List.foldl_cons, h.foldl_of_notMem hlater, h.set i v key b hmem]
      · exact ih hrest hi (edit j v)

end

end Lib.SharedEdits
