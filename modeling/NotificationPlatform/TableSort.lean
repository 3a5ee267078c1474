import Mathlib.Data.String.Basic
import NotificationPlatform.Lib.StableSort
import NotificationPlatform.TenantReads

/-!
# The order of a table

`DataTableQuery` sorts what the search and the filters leave by the lower-cased text of a field. In
ascending order its comparison is that of the lower-cased texts. In descending order it also asks
whether the texts differ as they are, so two texts that differ in their case only are each less
than the other: that is no order, and the sort promises nothing.
-/

namespace NotificationPlatform

open Lib

/-- `strings.Compare` goes by the order of texts. -/
def Texts.Compares (x : Texts) : Prop := ∀ a b, x.compare a b = .lt ↔ a < b

/-- The text of the field of an item that the sort goes by. -/
def Texts.sortKey (x : Texts) (field : String) (item : Json) : String :=
  x.lowerText (x.field item field)

/-- The item has the text that is searched for, and the value of every filter that has one. -/
def Satisfies (x : Texts) (query : Values) (item : Json) : Prop :=
  (x.lowerText (trimSpace (query.get "q")) = "" ∨
    contains (x.lowerText (x.marshal item)) (x.lowerText (trimSpace (query.get "q"))) = true) ∧
  ∀ e ∈ query, hasPrefix e.1 filterPrefix = true → query.get e.1 ≠ "" →
    x.equalFold (x.field item (trimPrefix e.1 filterPrefix)) (query.get e.1) = true

instance (x : Texts) (query : Values) : DecidablePred (Satisfies x query) :=
  fun _ => inferInstanceAs (Decidable (_ ∧ _))

def satisfying (x : Texts) (query : Values) (raw : List Json) : List Json :=
  raw.filter fun item => Satisfies x query item

section

variable {x : Texts} {query : Values} {raw : List Json}

theorem selectItems_eq (hobject : ∀ item ∈ raw, item.isObject = true) :
    selectItems x query raw =
      if query.get "sort" = "" then satisfying x query raw
      else x.sliceStable (itemLess x (query.get "sort") (x.lowerText (query.get "order")))
        (satisfying x query raw) := by
  have hfilter : (raw.filter fun item => item.isObject &&
      (x.lowerText (trimSpace (query.get "q")) == "" ||
        contains (x.lowerText (x.marshal item)) (x.lowerText (trimSpace (query.get "q")))) &&
      matchesFilters x item query) = satisfying x query raw := by
    apply List.filter_congr
    intro item hitem
    have hfilters : matchesFilters x item query = true ↔
        ∀ e ∈ query, hasPrefix e.1 filterPrefix = true → query.get e.1 ≠ "" →
          x.equalFold (x.field item (trimPrefix e.1 filterPrefix)) (query.get e.1) = true := by
      simp only [matchesFilters, List.all_eq_true, Bool.or_eq_true, Bool.not_eq_true', beq_iff_eq]
      apply forall₂_congr
      intro e _
      by_cases h1 : hasPrefix e.1 filterPrefix = true
      · by_cases h2 : query.get e.1 = ""
        · simp [h2]
        · simp [h1, h2]
      · simp [h1]
    rw [Bool.eq_iff_iff, decide_eq_true_iff, Bool.and_eq_true, Bool.and_eq_true, hobject item hitem,
      Bool.or_eq_true, beq_iff_eq, hfilters]
    simp only [true_and, Satisfies]
  unfold selectItems
  dsimp only
  rw [hfilter]

theorem satisfies_plain (hq : query.get "q" = "") (hfilter : hasFilter query = false)
    (item : Json) : Satisfies x query item := by
  have htrim : trimSpace "" = "" := by decide
  constructor
  · left
    rw [hq, htrim]
    simp [Texts.lowerText]
  · intro e he hprefix
    have hnone : ¬hasPrefix e.1 filterPrefix = true := List.any_eq_false.mp hfilter e he
    exact absurd hprefix hnone

theorem selectItems_plain (hq : query.get "q" = "") (hsort : query.get "sort" = "")
    (hfilter : hasFilter query = false) (hobject : ∀ item ∈ raw, item.isObject = true) :
    selectItems x query raw = raw := by
  rw [selectItems_eq hobject, if_pos hsort, satisfying, List.filter_eq_self]
  intro item _
  exact decide_eq_true (satisfies_plain hq hfilter item)

theorem itemLess_ascending (hx : x.Compares) {direction : String} (h : direction ≠ "desc")
    (field : String) (i j : Json) :
    itemLess x field direction i j = true ↔ x.sortKey field i < x.sortKey field j := by
  rw [← hx]
  simp [itemLess, h, Texts.sortKey]

theorem itemLess_descending (hx : x.Compares) (field : String) (i j : Json) :
    itemLess x field "desc" i j = true ↔
      x.sortKey field j ≤ x.sortKey field i ∧ x.field i field ≠ x.field j field := by
  have hle : x.sortKey field j ≤ x.sortKey field i ↔
      ¬x.compare (x.sortKey field i) (x.sortKey field j) = .lt := by
    rw [hx, not_lt]
  rw [hle]
  simp [itemLess, Texts.sortKey]

theorem selectItems_ascending (hx : x.Compares) (hsort : SortsStably x.sliceStable)
    (horder : x.lowerText (query.get "order") ≠ "desc") (hfield : query.get "sort" ≠ "")
    (hobject : ∀ item ∈ raw, item.isObject = true) :
    SortedBy (· ≤ ·) (x.sortKey (query.get "sort")) (satisfying x query raw)
      (selectItems x query raw) := by
  rw [selectItems_eq hobject, if_neg hfield]
  apply hsort.sortedBy
  intro i _ j _
  exact itemLess_ascending hx horder _ i j

/-- The texts of the field differ in their case only. -/
def Clash (x : Texts) (field : String) (i j : Json) : Prop :=
  x.sortKey field i = x.sortKey field j ∧ x.field i field ≠ x.field j field

theorem selectItems_descending (hx : x.Compares) (hsort : SortsStably x.sliceStable)
    (horder : x.lowerText (query.get "order") = "desc") (hfield : query.get "sort" ≠ "")
    (hobject : ∀ item ∈ raw, item.isObject = true)
    (hclash : ∀ i ∈ satisfying x query raw, ∀ j ∈ satisfying x query raw,
      ¬Clash x (query.get "sort") i j) :
    SortedBy (· ≥ ·) (x.sortKey (query.get "sort")) (satisfying x query raw)
      (selectItems x query raw) := by
  rw [selectItems_eq hobject, if_neg hfield, horder]
  have hless : ∀ i ∈ satisfying x query raw, ∀ j ∈ satisfying x query raw,
      itemLess x (query.get "sort") "desc" i j = true ↔
        OrderDual.toDual (x.sortKey (query.get "sort") i) <
          OrderDual.toDual (x.sortKey (query.get "sort") j) := by
    intro i hi j hj
    rw [itemLess_descending hx, OrderDual.toDual_lt_toDual]
    constructor
    · rintro ⟨hle, hne⟩
      apply lt_of_le_of_ne hle
      intro heq
      exact hclash i hi j hj ⟨heq.symm, hne⟩
    · intro hlt
      refine ⟨hlt.le, ?_⟩
      intro htext
      apply hlt.ne
      rw [Texts.sortKey, Texts.sortKey, htext]
  have h := hsort.sortedBy hless
  refine ⟨h.perm, h.sorted, ?_⟩
  intro k
  simpa only [OrderDual.toDual_inj] using h.stable (OrderDual.toDual k)

end

/-! ## Two texts that differ in their case only -/

section

variable {α κ τ : Type} [LinearOrder κ] [DecidableEq τ] {key : α → κ} {text : α → τ}
  {less : α → α → Bool}

private def passOthers (text : α → τ) (a : α) : List α → List α
  | [] => [a]
  | b :: rest => if text a ≠ text b then b :: passOthers text a rest else a :: b :: rest

private def passAll (text : α → τ) (l : List α) : List α :=
  l.foldl (fun sorted a => passOthers text a sorted) []

private theorem text_of_passAll {l : List α} (h : passAll text l = l.reverse) :
    ∀ a ∈ l, ∀ b ∈ l, text a = text b := by
  induction l using List.reverseRecOn with
  | nil => simp
  | append_singleton l a ih =>
      have hlast : passOthers text a (passAll text l) = a :: l.reverse := by
        simpa [passAll, List.foldl_append] using h
      cases hr : passAll text l with
      | nil =>
          rw [hr] at hlast
          have hl : l = [] := by simpa [passOthers] using hlast
          subst hl
          simp
      | cons b rest =>
          rw [hr] at hlast
          by_cases hab : text a ≠ text b
          · rw [passOthers, if_pos hab] at hlast
            have hba : b = a := (List.cons.inj hlast).1
            exact absurd (by rw [hba]) hab
          · rw [passOthers, if_neg hab] at hlast
            have hl : passAll text l = l.reverse := hr.trans (List.cons.inj hlast).2
            have hbl : b ∈ l := by
              rw [← List.mem_reverse, ← hl, hr]
              simp
            have hsame := ih hl
            have ha : ∀ c ∈ l, text a = text c := by
              intro c hc
              exact (not_not.mp hab).trans (hsame b hbl c hc)
            intro c hc d hd
            simp only [List.mem_append, List.mem_singleton] at hc hd
            rcases hc with hc | rfl
            · rcases hd with hd | rfl
              · exact hsame c hc d hd
              · exact (ha c hc).symm
            · rcases hd with hd | rfl
              · exact ha d hd
              · rfl

variable (hless : ∀ a b, less a b = true ↔ key b ≤ key a ∧ text a ≠ text b)
  (htext : ∀ a b, text a = text b → key a = key b)

include hless htext

omit [DecidableEq τ] in
private theorem insertBack_le {a : α} {r : List α} (h : r.Pairwise fun b c => key b ≤ key c) :
    (insertBack less a r).Pairwise fun b c => key b ≤ key c := by
  induction r with
  | nil => simp [insertBack]
  | cons b rest ih =>
      have hb := (List.pairwise_cons.mp h).1
      by_cases hab : less a b = true
      · rw [insertBack, if_pos hab]
        refine List.pairwise_cons.mpr ⟨?_, ih (List.pairwise_cons.mp h).2⟩
        intro c hc
        have hmem := (perm_insertBack less a rest).mem_iff.mp hc
        rcases List.mem_cons.mp hmem with rfl | hc
        · exact ((hless c b).mp hab).1
        · exact hb c hc
      · rw [insertBack, if_neg hab]
        have hle : key a ≤ key b := by
          by_contra hlt
          apply hab
          rw [hless]
          refine ⟨(not_le.mp hlt).le, ?_⟩
          intro hsame
          exact hlt (htext a b hsame).le
        refine List.pairwise_cons.mpr ⟨?_, h⟩
        intro c hc
        rcases List.mem_cons.mp hc with rfl | hc
        · exact hle
        · exact hle.trans (hb c hc)

private theorem filter_insertBack_key {a : α} {r : List α}
    (h : r.Pairwise fun b c => key b ≤ key c) (k : κ) :
    (insertBack less a r).filter (fun b => key b = k) =
      if key a = k then passOthers text a (r.filter fun b => key b = k)
      else r.filter fun b => key b = k := by
  induction r with
  | nil => by_cases hk : key a = k <;> simp [insertBack, passOthers, hk]
  | cons b rest ih =>
      have hb := (List.pairwise_cons.mp h).1
      have ih := ih (List.pairwise_cons.mp h).2
      by_cases hab : less a b = true
      · rw [insertBack, if_pos hab, List.filter_cons, ih]
        have hne := ((hless a b).mp hab).2
        by_cases hka : key a = k
        · by_cases hkb : key b = k
          · simp [hka, hkb, passOthers, hne]
          · simp [hka, hkb]
        · by_cases hkb : key b = k <;> simp [hka, hkb]
      · rw [insertBack, if_neg hab]
        by_cases hka : key a = k
        · by_cases hkb : key b = k
          · have hsame : text a = text b := by
              by_contra hne
              apply hab
              rw [hless]
              exact ⟨by rw [hka, hkb], hne⟩
            simp [hka, hkb, passOthers, hsame]
          · -- the member stops before a greater one, and none of its key is behind that
            have hlt : key a < key b := by
              by_contra hle
              apply hab
              rw [hless]
              refine ⟨not_lt.mp hle, ?_⟩
              intro hsame
              exact hkb ((htext a b hsame).symm.trans hka)
            have hnone : rest.filter (fun c => key c = k) = [] := by
              rw [List.filter_eq_nil_iff]
              intro c hc hkc
              have hkc' : key c = k := by simpa using hkc
              have hle := hb c hc
              rw [hkc', ← hka] at hle
              exact absurd hlt (not_lt.mpr hle)
            simp [hka, hkb, hnone, passOthers]
        · simp [hka]

private theorem insertionSort_key (l : List α) :
    (insertionSort less l).reverse.Pairwise (fun b c => key b ≤ key c) ∧
      ∀ k, (insertionSort less l).reverse.filter (fun b => key b = k) =
        passAll text (l.filter fun b => key b = k) := by
  induction l using List.reverseRecOn with
  | nil => exact ⟨by simp [insertionSort], fun k => by simp [insertionSort, passAll]⟩
  | append_singleton l a ih =>
      obtain ⟨hsorted, hfilter⟩ := ih
      rw [insertionSort_concat, List.reverse_reverse]
      refine ⟨insertBack_le hless htext hsorted, ?_⟩
      intro k
      rw [filter_insertBack_key hless htext hsorted, hfilter]
      by_cases hka : key a = k
      · simp [hka, passAll, List.foldl_append]
      · simp [hka]

private theorem text_of_stable {l : List α}
    (hstable : ∀ k, (insertionSort less l).filter (fun a => key a = k) =
      l.filter fun a => key a = k) {a b : α} (ha : a ∈ l) (hb : b ∈ l) (hkey : key a = key b) :
    text a = text b := by
  have hfilter := (insertionSort_key hless htext l).2 (key b)
  rw [List.filter_reverse, hstable] at hfilter
  apply text_of_passAll hfilter.symm
  · simp [ha, hkey]
  · simp [hb]

end

theorem no_clash_of_stable {x : Texts} (hx : x.Compares) {field : String} {l : List Json}
    (h : SortedBy (· ≥ ·) (x.sortKey field) l (insertionSort (itemLess x field "desc") l)) :
    ∀ i ∈ l, ∀ j ∈ l, ¬Clash x field i j := by
  rintro i hi j hj ⟨hkey, hne⟩
  apply hne
  have hdescending := itemLess_descending hx field
  apply text_of_stable hdescending ?_ h.stable hi hj hkey
  intro a b hab
  rw [Texts.sortKey, Texts.sortKey, hab]

end NotificationPlatform
