import Mathlib.Algebra.Order.Floor.Div
import NotificationPlatform.TableSort

/-!
# The pages of a table

`DataTableQuery` cuts a page out of the items that are left. Its numbers are 64 bits wide, and the
page is multiplied before anything is clamped. As long as no product overflows, the pages of a
query are the items in their order, cut into pieces.
-/

namespace NotificationPlatform

open Lib
open Lib.Sql (Row)

private theorem readDigits_toDigits (n : Nat) : readDigits (Nat.toDigits 10 n) = some (n : Int) := by
  have hdigits : (Nat.toDigits 10 n).all Char.isDigit = true := by
    rw [List.all_eq_true]
    intro c hc
    exact Nat.isDigit_of_mem_toDigits (by decide) (by decide) hc
  have hfold : ∀ (cs : List Char) (k : Nat),
      cs.foldl (fun (n : Int) c => 10 * n + ((c.toNat - '0'.toNat : Nat) : Int)) (k : Int) =
        ((Nat.ofDigitChars 10 cs k : Nat) : Int) := by
    intro cs
    induction cs with
    | nil => intro k; simp [Nat.ofDigitChars_nil]
    | cons c cs ih =>
        intro k
        rw [List.foldl_cons, Nat.ofDigitChars_cons, ← ih]
        push_cast
        rfl
  have hvalue := hfold (Nat.toDigits 10 n) 0
  rw [Nat.ofDigitChars_ten_toDigits] at hvalue
  have hne : (Nat.toDigits 10 n).isEmpty = false := by
    simp [Nat.toDigits_ne_nil]
  unfold readDigits
  rw [hne, hdigits]
  simpa using hvalue

theorem atoi_toString {n : Nat} (h : (n : Int) ≤ maxInt) : atoi (toString n) = (↑n, true) := by
  have htext : (toString n).toList = Nat.toDigits 10 n := Nat.toList_repr
  have hsign : ∀ c ∈ Nat.toDigits 10 n, c ≠ '-' ∧ c ≠ '+' := by
    intro c hc
    have hdigit := Nat.isDigit_of_mem_toDigits (by decide) (by decide) hc
    constructor <;> (rintro rfl; exact absurd hdigit (by decide))
  have hvalue := readDigits_toDigits n
  have hmax : ¬maxInt < (n : Int) := by omega
  have hmin : ¬(n : Int) < -maxInt - 1 := by
    have : (0 : Int) ≤ maxInt := by decide
    omega
  unfold atoi
  rw [htext]
  dsimp only
  split
  · next hnone =>
      split at hnone
      · next hd => exact absurd rfl (hsign '-' (by rw [hd]; simp)).1
      · next hd => exact absurd rfl (hsign '+' (by rw [hd]; simp)).2
      · simp [hvalue] at hnone
  · next k hk =>
      split at hk
      · next hd => exact absurd rfl (hsign '-' (by rw [hd]; simp)).1
      · next hd => exact absurd rfl (hsign '+' (by rw [hd]; simp)).2
      · obtain rfl : (n : Int) = k := by simpa [hvalue] using hk
        rw [if_neg hmax, if_neg hmin]

theorem positiveInt_toString {n : Nat} (h1 : 1 ≤ n) (h : (n : Int) ≤ maxInt)
    (fallback : Int) : positiveInt (toString n) fallback = n := by
  have hnot : ¬(n : Int) < 1 := by omega
  unfold positiveInt
  rw [atoi_toString h]
  simp [hnot]

/-- The bounds of the slice that `DataTableQuery` cuts out of its items, in 64 bits. -/
def sliceBounds (query : Values) (total : Int) : Int × Int :=
  let page := positiveInt (query.get "page") 1
  let perPage := positiveInt (query.get "per_page") 25
  let perPage := if perPage > 100 then 100 else perPage
  let start := wrapInt (wrapInt (page - 1) * perPage)
  let start := if start > total then total else start
  let stop := wrapInt (start + perPage)
  let stop := if stop > total then total else stop
  (start, stop)

/-- The page and its length that a query asks `DataTableQuery` for. -/
def tableAsk (query : Values) : Int × Int :=
  (positiveInt (query.get "page") 1, min 100 (positiveInt (query.get "per_page") 25))

def rowsBefore (ask : Int × Int) : Int := (ask.1 - 1) * ask.2

private theorem atoi_le (s : String) : (atoi s).1 ≤ maxInt := by
  have hmax : (0 : Int) ≤ maxInt := by decide
  unfold atoi
  dsimp only
  split
  · exact hmax
  · split
    · exact le_refl _
    · split <;> omega

private theorem positiveInt_range (value : String) {fallback : Int} (h1 : 1 ≤ fallback)
    (h : fallback ≤ maxInt) :
    1 ≤ positiveInt value fallback ∧ positiveInt value fallback ≤ maxInt := by
  have hle := atoi_le value
  unfold positiveInt
  dsimp only
  split
  · exact ⟨h1, h⟩
  · next hnot =>
      simp only [Bool.or_eq_true, Bool.not_eq_true', decide_eq_true_eq, not_or] at hnot
      omega

private theorem tableAsk_range (query : Values) : 1 ≤ (tableAsk query).1 ∧
    (tableAsk query).1 ≤ maxInt ∧ 1 ≤ (tableAsk query).2 ∧ (tableAsk query).2 ≤ 100 := by
  have hpage := positiveInt_range (query.get "page") (by decide : (1 : Int) ≤ 1) (by decide)
  have hper := positiveInt_range (query.get "per_page") (by decide : (1 : Int) ≤ 25) (by decide)
  unfold tableAsk
  dsimp only
  omega

theorem sliceBounds_eq (query : Values) (total : Int) :
    sliceBounds query total =
      (min (wrapInt (rowsBefore (tableAsk query))) total,
        min (wrapInt (min (wrapInt (rowsBefore (tableAsk query))) total + (tableAsk query).2))
          total) := by
  have hpage := positiveInt_range (query.get "page") (by decide : (1 : Int) ≤ 1) (by decide)
  have hbefore : wrapInt (positiveInt (query.get "page") 1 - 1) =
      positiveInt (query.get "page") 1 - 1 := wrapInt_of_le (by omega) (by omega)
  have hcap : ∀ n cap : Int, (if n > cap then cap else n) = min n cap := by
    intro n cap
    split <;> omega
  unfold sliceBounds rowsBefore tableAsk
  simp only [hbefore, hcap, min_comm (100 : Int)]

/-- The query with a page number and a page length before its other parameters. -/
def paged (page perPage : Nat) (query : Values) : Values :=
  ("page", toString page) :: ("per_page", toString perPage) :: query

/-- The entries of a list fit into a body: each takes at least three bytes of it. -/
def FitsBody (raw : List Json) : Prop := 3 * (raw.length : Int) ≤ maxInt

def tableMeta (page perPage total : Nat) : Json :=
  .obj [("page", .num (page : Int)), ("per_page", .num (perPage : Int)),
    ("total", .num (total : Int)), ("total_pages", .num ((max 1 (total ⌈/⌉ perPage) : Nat) : Int))]

section

variable {x : Texts} {query : Values} {r : JsonResponse} {fields : List (String × Json)}
  {raw : List Json} {page perPage : Nat}

private theorem paged_get {key : String} (h1 : key ≠ "page") (h2 : key ≠ "per_page") :
    (paged page perPage query).get key = query.get key := by
  have h1' : (key == "page") = false := by simpa using h1
  have h2' : (key == "per_page") = false := by simpa using h2
  simp [paged, Values.get, List.lookup_cons, h1', h2']

private theorem satisfies_paged (item : Json) :
    Satisfies x (paged page perPage query) item ↔ Satisfies x query item := by
  have hq : (paged page perPage query).get "q" = query.get "q" :=
    paged_get (by decide) (by decide)
  have hkey : ∀ key, hasPrefix key filterPrefix = true →
      (paged page perPage query).get key = query.get key := by
    intro key hkey
    apply paged_get
    · rintro rfl
      exact absurd hkey (by decide)
    · rintro rfl
      exact absurd hkey (by decide)
  unfold Satisfies
  rw [hq]
  apply and_congr_right
  intro _
  have h1 : hasPrefix "page" filterPrefix = false := by decide
  have h2 : hasPrefix "per_page" filterPrefix = false := by decide
  constructor
  · intro h e he hprefix
    have hmem : e ∈ paged page perPage query := by simp [paged, he]
    have hfilter := h e hmem hprefix
    rwa [hkey e.1 hprefix] at hfilter
  · intro h e he hprefix
    rcases List.mem_cons.mp he with rfl | he
    · rw [h1] at hprefix
      simp at hprefix
    · rcases List.mem_cons.mp he with rfl | he
      · rw [h2] at hprefix
        simp at hprefix
      · rw [hkey e.1 hprefix]
        exact h e he hprefix

private theorem selectItems_paged (hobject : ∀ item ∈ raw, item.isObject = true) :
    selectItems x (paged page perPage query) raw = selectItems x query raw := by
  have hsame : satisfying x (paged page perPage query) raw = satisfying x query raw := by
    apply List.filter_congr
    intro item _
    rw [decide_eq_decide]
    exact satisfies_paged item
  rw [selectItems_eq hobject, selectItems_eq hobject, hsame,
    paged_get (by decide) (by decide), paged_get (by decide) (by decide)]

theorem numbers_le (hpage : 1 ≤ page) (hper : 1 ≤ perPage)
    (hbound : (page * perPage : Int) ≤ maxInt) :
    (page : Int) ≤ maxInt ∧ (perPage : Int) ≤ maxInt := by
  have h1 : page ≤ page * perPage := Nat.le_mul_of_pos_right page hper
  have h2 : perPage ≤ page * perPage := Nat.le_mul_of_pos_left perPage hpage
  have h3 : ((page * perPage : Nat) : Int) ≤ maxInt := by exact_mod_cast hbound
  omega

theorem offset_eq (hpage : 1 ≤ page) (hbound : (page * perPage : Int) ≤ maxInt) :
    wrapInt (((page : Int) - 1) * perPage) = (((page - 1) * perPage : Nat) : Int) := by
  have hcast : ((page : Int) - 1) * perPage = (((page - 1) * perPage : Nat) : Int) := by
    push_cast [hpage]
    rfl
  have hle : (page - 1) * perPage ≤ page * perPage := Nat.mul_le_mul_right _ (Nat.sub_le _ _)
  have hle' : ((page * perPage : Nat) : Int) ≤ maxInt := by exact_mod_cast hbound
  rw [hcast]
  apply wrapInt_of_le <;> omega

theorem tablePage_eq_none :
    tablePage x query fields raw = none ↔ wrapInt (rowsBefore (tableAsk query)) < 0 := by
  have hcap : (if positiveInt (query.get "per_page") 25 > 100 then 100
      else positiveInt (query.get "per_page") 25) = (tableAsk query).2 := by
    unfold tableAsk
    dsimp only
    split <;> omega
  have hbefore : (positiveInt (query.get "page") 1 - 1) * (tableAsk query).2 =
      rowsBefore (tableAsk query) := rfl
  unfold tablePage
  simp only [hcap, hbefore]
  generalize wrapInt (rowsBefore (tableAsk query)) = start
  by_cases hover : start > ((selectItems x query raw).length : Int)
  · rw [if_pos hover, if_neg (by omega)]
    exact iff_of_false (Option.some_ne_none _) (by omega)
  · rw [if_neg hover]
    by_cases hlt : start < 0
    · exact iff_of_true (if_pos hlt) hlt
    · rw [if_neg hlt]
      exact iff_of_false (Option.some_ne_none _) hlt

theorem dataTableQuery_slice (hwants : wantsTable query = true) (hstatus : r.status < 300)
    (hbody : r.body = .obj fields) (hdata : r.body.field? "data" = some (.arr raw))
    {items : List Json} (hitems : selectItems x query raw = items)
    (hsize : (items.length : Int) + 100 ≤ maxInt) :
    dataTableQuery x query r =
      if (sliceBounds query items.length).1 < 0 then .error 500 "internal server error"
      else ⟨r.status, .obj (setField (setField fields "data" (.arr
        ((items.drop (sliceBounds query items.length).1.toNat).take
          ((sliceBounds query items.length).2 - (sliceBounds query items.length).1).toNat))) "meta"
        (.obj [("page", .num (tableAsk query).1), ("per_page", .num (tableAsk query).2),
          ("total", .num (items.length : Int)), ("total_pages", .num (max 1
            (((items.length : Int) + (tableAsk query).2 - 1) / (tableAsk query).2) : Int))]))⟩ := by
  obtain ⟨hpage, hpage', hper, hper'⟩ := tableAsk_range query
  have hcap : (if positiveInt (query.get "per_page") 25 > 100 then 100
      else positiveInt (query.get "per_page") 25) = (tableAsk query).2 := by
    unfold tableAsk
    dsimp only
    split <;> omega
  have hfirst : positiveInt (query.get "page") 1 = (tableAsk query).1 := rfl
  have hmin : ∀ n cap : Int, (if n > cap then cap else n) = min n cap := by
    intro n cap
    split <;> omega
  have hlow : -(2 ^ 63) ≤ wrapInt (rowsBefore (tableAsk query)) := by
    unfold wrapInt
    omega
  have hstop : wrapInt (min (wrapInt (rowsBefore (tableAsk query))) (items.length : Int) +
      (tableAsk query).2) =
      min (wrapInt (rowsBefore (tableAsk query))) (items.length : Int) + (tableAsk query).2 := by
    unfold maxInt at hsize
    generalize wrapInt (rowsBefore (tableAsk query)) = start at hlow
    unfold wrapInt
    omega
  have hbefore : ((tableAsk query).1 - 1) * (tableAsk query).2 = rowsBefore (tableAsk query) := rfl
  have hnot : (!wantsTable query || 300 ≤ r.status) = false := by simp [hwants, hstatus]
  rw [sliceBounds_eq, hstop]
  unfold dataTableQuery tablePage
  simp only [hnot, hdata, hitems, hcap, hfirst, hmin, hbefore]
  rw [hbody, if_neg Bool.false_ne_true]
  dsimp only
  split
  · next hpanic =>
      split at hpanic
      · next hlt => rw [if_pos hlt]
      · simp at hpanic
  · next page hpage =>
      split at hpage
      · simp at hpage
      · next hnot' => rw [if_neg hnot', ← Option.some.inj hpage]

private theorem tableAsk_paged (query : Values) (hpage : 1 ≤ page) (hper : 1 ≤ perPage)
    (hper' : perPage ≤ 100) (hbound : (page * perPage : Int) ≤ maxInt) :
    tableAsk (paged page perPage query) = ((page : Int), (perPage : Int)) := by
  obtain ⟨h1, h2⟩ := numbers_le hpage hper hbound
  have hgetPage : (paged page perPage query).get "page" = toString page := rfl
  have hgetPer : (paged page perPage query).get "per_page" = toString perPage := rfl
  unfold tableAsk
  rw [hgetPage, hgetPer, positiveInt_toString hpage h1, positiveInt_toString hper h2]
  have hmin : min 100 (perPage : Int) = perPage := by omega
  rw [hmin]

private theorem totalPages_eq (total : Nat) (hper : 1 ≤ perPage) :
    (max 1 (((total : Int) + perPage - 1) / perPage) : Int) =
      ((max 1 (total ⌈/⌉ perPage) : Nat) : Int) := by
  have hcast : ((total : Int) + perPage - 1) = ((total + perPage - 1 : Nat) : Int) := by omega
  have hdiv : ((total + perPage - 1 : Nat) : Int) / perPage =
      (((total + perPage - 1) / perPage : Nat) : Int) := (Int.natCast_ediv _ _).symm
  rw [hcast, hdiv, Nat.ceilDiv_eq_add_pred_div]
  omega

theorem dataTableQuery_paged (hstatus : r.status < 300) (hbody : r.body = .obj fields)
    (hdata : r.body.field? "data" = some (.arr raw))
    (hobject : ∀ item ∈ raw, item.isObject = true) {items : List Json}
    (hitems : selectItems x query raw = items) (hsize : (items.length : Int) + 100 ≤ maxInt)
    (hpage : 1 ≤ page) (hper : 1 ≤ perPage) (hper' : perPage ≤ 100)
    (hbound : (page * perPage : Int) ≤ maxInt) :
    dataTableQuery x (paged page perPage query) r =
      ⟨r.status, .obj (setField (setField fields "data" (.arr
        ((items.drop ((page - 1) * perPage)).take perPage))) "meta"
        (tableMeta page perPage items.length))⟩ := by
  have hwants : wantsTable (paged page perPage query) = true := by
    obtain ⟨h1, -⟩ := numbers_le hpage hper hbound
    have hget : (paged page perPage query).get "page" = toString page := rfl
    simp [wantsTable, hget]
  have hask := tableAsk_paged query hpage hper hper' hbound
  have hbefore : wrapInt (rowsBefore ((page : Int), (perPage : Int))) =
      (((page - 1) * perPage : Nat) : Int) := offset_eq hpage hbound
  rw [dataTableQuery_slice hwants hstatus hbody hdata ((selectItems_paged hobject).trans hitems)
    hsize, sliceBounds_eq, hask, hbefore]
  set start := (page - 1) * perPage with hstart
  have hfrom : min (start : Int) (items.length : Int) = ((min start items.length : Nat) : Int) := by
    omega
  have hstop : wrapInt (((min start items.length : Nat) : Int) + perPage) =
      ((min start items.length + perPage : Nat) : Int) := by
    have hsum : ((min start items.length : Nat) : Int) + perPage ≤ maxInt := by omega
    rw [wrapInt_of_le (by omega) hsum]
    push_cast
    rfl
  have hto : min ((min start items.length + perPage : Nat) : Int) (items.length : Int) =
      ((min (min start items.length + perPage) items.length : Nat) : Int) := by
    omega
  have hpos : ¬((min start items.length : Nat) : Int) < 0 := by omega
  have hlength : (((min (min start items.length + perPage) items.length : Nat) : Int) -
      ((min start items.length : Nat) : Int)).toNat =
      min (min start items.length + perPage) items.length - min start items.length := by
    omega
  have hcut : (items.drop (min start items.length)).take
      (min (min start items.length + perPage) items.length - min start items.length) =
      (items.drop start).take perPage := by
    by_cases hle : start ≤ items.length
    · rw [min_eq_left hle]
      apply List.take_eq_take_iff.mpr
      rw [List.length_drop]
      omega
    · have hlt : items.length ≤ start := by omega
      rw [min_eq_right hlt, List.drop_eq_nil_of_le hlt, List.drop_eq_nil_of_le (le_refl _)]
      simp
  simp only [hfrom, hstop, hto, if_neg hpos, hlength, Int.toNat_natCast, hcut,
    totalPages_eq items.length hper]
  rfl

end

def pageItems (r : JsonResponse) : List Json :=
  match r.body.field? "data" with
  | some (.arr items) => items
  | _ => []

def allPages (answer : Nat → JsonResponse) (pages : Nat) : List Json :=
  (List.range pages).flatMap fun i => pageItems (answer (i + 1))

/-- The answer says how many items and how many pages there are. -/
def Reports (r : JsonResponse) (total pages : Nat) : Prop :=
  (r.body.field? "meta").bind (Json.field? "total") = some (.num (total : Int)) ∧
    (r.body.field? "meta").bind (Json.field? "total_pages") = some (.num (pages : Int))

/-- The pages that there are of so many items; an empty list has one. -/
def pageCount (total perPage : Nat) : Nat := max 1 (total ⌈/⌉ perPage)

private theorem flatMap_slices (items : List Json) (k pages : Nat) :
    (List.range pages).flatMap (fun i => (items.drop (i * k)).take k) = items.take (pages * k) := by
  induction pages with
  | zero => simp
  | succ n ih =>
      rw [List.range_succ, List.flatMap_append, ih, Nat.succ_mul, List.take_add]
      simp

private theorem pageCount_mul (total : Nat) {k : Nat} (hk : 1 ≤ k) :
    total ≤ pageCount total k * k ∧ pageCount total k * k ≤ total + k := by
  unfold pageCount
  rw [Nat.ceilDiv_eq_add_pred_div]
  have hmod := Nat.div_add_mod (total + k - 1) k
  have hlt := Nat.mod_lt (total + k - 1) hk
  rw [Nat.mul_comm] at hmod
  generalize (total + k - 1) / k = pages at hmod
  by_cases h : 1 ≤ pages
  · rw [max_eq_right h]
    omega
  · have hzero : pages = 0 := by omega
    rw [hzero, Nat.zero_mul] at hmod
    rw [hzero, max_eq_left (by decide), Nat.one_mul]
    omega

section

variable {x : Texts} {query : Values} {r : JsonResponse} {raw items : List Json} {k : Nat}

private theorem size_of_fits (hfits : FitsBody raw) (hlength : items.length ≤ raw.length) :
    (items.length : Int) + 100 ≤ maxInt := by
  unfold FitsBody maxInt at *
  omega

theorem bound_of_le_pageCount {i : Nat} (hk : 1 ≤ k) (hk' : k ≤ 100)
    (hsize : (items.length : Int) + 100 ≤ maxInt) (hi : i ≤ pageCount items.length k) :
    (i * k : Int) ≤ maxInt := by
  have hmul : i * k ≤ pageCount items.length k * k := Nat.mul_le_mul_right k hi
  have hle := (pageCount_mul items.length hk).2
  have hcast : ((i * k : Nat) : Int) ≤ maxInt := by omega
  exact_mod_cast hcast

variable (hstatus : r.status < 300) (hdata : r.body.field? "data" = some (.arr raw))
  (hobject : ∀ item ∈ raw, item.isObject = true) (hitems : selectItems x query raw = items)
  (hsize : (items.length : Int) + 100 ≤ maxInt) (hk : 1 ≤ k) (hk' : k ≤ 100)

include hstatus hdata hobject hitems hsize hk hk'

theorem page_facts {i : Nat} (hi : 1 ≤ i) (hbound : (i * k : Int) ≤ maxInt) :
    (dataTableQuery x (paged i k query) r).status = r.status ∧
      (dataTableQuery x (paged i k query) r).body.field? "data" =
        some (.arr ((items.drop ((i - 1) * k)).take k)) ∧
      Reports (dataTableQuery x (paged i k query) r) items.length (pageCount items.length k) ∧
      ∀ name, name ≠ "data" → name ≠ "meta" →
        (dataTableQuery x (paged i k query) r).body.field? name = r.body.field? name := by
  obtain ⟨fields, hbody⟩ : ∃ fields, r.body = .obj fields := by
    cases hbody : r.body with
    | obj fields => exact ⟨fields, rfl⟩
    | _ => simp [hbody, Json.field?] at hdata
  rw [dataTableQuery_paged hstatus hbody hdata hobject hitems hsize hi hk hk' hbound]
  refine ⟨rfl, ?_, ?_, ?_⟩
  · dsimp only
    rw [Json.field?_setField, if_neg (by decide), Json.field?_setField, if_pos rfl]
  · unfold Reports
    dsimp only
    rw [Json.field?_setField, if_pos rfl]
    exact ⟨rfl, rfl⟩
  · intro name h1 h2
    dsimp only
    rw [Json.field?_setField, if_neg (fun h => h2 h.symm), Json.field?_setField,
      if_neg (fun h => h1 h.symm), hbody]

theorem allPages_eq : allPages (fun i => dataTableQuery x (paged i k query) r)
    (pageCount items.length k) = items := by
  have hpage : ∀ i ∈ List.range (pageCount items.length k),
      pageItems (dataTableQuery x (paged (i + 1) k query) r) = (items.drop (i * k)).take k := by
    intro i hi
    have hlt := List.mem_range.mp hi
    have hbound := bound_of_le_pageCount (i := i + 1) hk hk' hsize (by omega)
    have hfacts := page_facts hstatus hdata hobject hitems hsize hk hk' (i := i + 1) (by omega) hbound
    unfold pageItems
    rw [hfacts.2.1]
    simp
  unfold allPages
  rw [List.flatMap_congr hpage, flatMap_slices]
  exact List.take_of_length_le (pageCount_mul items.length hk).1

end

/-- The functions with another `sort.SliceStable`. -/
def Texts.withSort (x : Texts) (sort : (Json → Json → Bool) → List Json → List Json) : Texts :=
  { x with sliceStable := sort }

/-- The entries are those that satisfy the query, sorted by a field when the query names one. -/
def InOrder (x : Texts) (query : Values) (raw entries : List Json) : Prop :=
  if query.get "sort" = "" then entries = satisfying x query raw
  else SortedBy (· ≤ ·) (x.sortKey (query.get "sort")) (satisfying x query raw) entries

section

variable {x : Texts} {query : Values} {r : JsonResponse} {raw : List Json} {k : Nat}

private theorem inOrder_selectItems (hx : x.Compares) (hsort : SortsStably x.sliceStable)
    (horder : x.lowerText (query.get "order") ≠ "desc")
    (hobject : ∀ item ∈ raw, item.isObject = true) :
    InOrder x query raw (selectItems x query raw) := by
  unfold InOrder
  by_cases hfield : query.get "sort" = ""
  · rw [if_pos hfield, selectItems_eq hobject, if_pos hfield]
  · rw [if_neg hfield]
    exact selectItems_ascending hx hsort horder hfield hobject

private theorem InOrder.length {entries : List Json} (h : InOrder x query raw entries) :
    entries.length = (satisfying x query raw).length := by
  unfold InOrder at h
  split at h
  · rw [h]
  · exact h.perm.length_eq

/-- The pages of a table are the items that satisfy the query, in order and each once, cut into
pieces; all of them report the same numbers, those behind the last are empty, and the rest of the
body stays as it is. -/
theorem table_pages_partition (hx : x.Compares) (hsort : SortsStably x.sliceStable)
    (horder : x.lowerText (query.get "order") ≠ "desc") (hstatus : r.status < 300)
    (hdata : r.body.field? "data" = some (.arr raw))
    (hobject : ∀ item ∈ raw, item.isObject = true) (hfits : FitsBody raw) (hk : 1 ≤ k)
    (hk' : k ≤ 100) :
    let total := (satisfying x query raw).length
    let answer := fun i => dataTableQuery x (paged i k query) r
    InOrder x query raw (allPages answer (pageCount total k)) ∧
      ∀ i, 1 ≤ i → i ≤ pageCount total k ∨ (i * k : Int) ≤ maxInt →
        (answer i).status = r.status ∧
          (answer i).body.field? "data" = some (.arr (pageItems (answer i))) ∧
          Reports (answer i) total (pageCount total k) ∧
          (pageCount total k < i → pageItems (answer i) = []) ∧
          ∀ name, name ≠ "data" → name ≠ "meta" →
            (answer i).body.field? name = r.body.field? name := by
  dsimp only
  have hinOrder := inOrder_selectItems hx hsort horder hobject
  have hlength := hinOrder.length
  have hsize : ((selectItems x query raw).length : Int) + 100 ≤ maxInt := by
    apply size_of_fits hfits
    rw [hlength]
    exact List.length_filter_le _ _
  rw [← hlength]
  constructor
  · rw [allPages_eq hstatus hdata hobject rfl hsize hk hk']
    exact hinOrder
  · intro i hi hpage
    have hbound : (i * k : Int) ≤ maxInt := by
      rcases hpage with hle | hbound
      · exact bound_of_le_pageCount hk hk' hsize hle
      · exact hbound
    obtain ⟨h1, h2, h3, h4⟩ := page_facts hstatus hdata hobject rfl hsize hk hk' hi hbound
    have hitems : pageItems (dataTableQuery x (paged i k query) r) =
        ((selectItems x query raw).drop ((i - 1) * k)).take k := by
      unfold pageItems
      rw [h2]
    refine ⟨h1, hitems ▸ h2, h3, ?_, h4⟩
    intro hbehind
    have hend := (pageCount_mul (selectItems x query raw).length hk).1
    have hskip : pageCount (selectItems x query raw).length k * k ≤ (i - 1) * k :=
      Nat.mul_le_mul_right k (by omega)
    rw [hitems, List.drop_eq_nil_of_le (by omega), List.take_nil]

def namesAnswer (names : List String) : JsonResponse :=
  ⟨200, .obj [("data", .arr (names.map fun name => .obj [("name", .str name)]))]⟩

private theorem compares_sampleTexts : sampleTexts.Compares := by
  intro a b
  exact compare_lt_iff_lt

/-- Three names, two on a page. -/
theorem table_pages_of_names :
    let x := sampleTexts.withSort insertionSort
    let raw := ["c", "a", "b"].map fun name => Json.obj [("name", .str name)]
    InOrder x [("sort", "name")] raw (allPages (fun i => dataTableQuery x
      (paged i 2 [("sort", "name")]) (namesAnswer ["c", "a", "b"]))
      (pageCount (satisfying x [("sort", "name")] raw).length 2)) := by
  have horder : (sampleTexts.withSort insertionSort).lowerText
      (Values.get [("sort", "name")] "order") ≠ "desc" := by decide
  have hobject : ∀ item ∈ ["c", "a", "b"].map fun name => Json.obj [("name", .str name)],
      item.isObject = true := by
    intro item hitem
    obtain ⟨name, -, rfl⟩ := List.mem_map.mp hitem
    rfl
  exact (table_pages_partition (x := sampleTexts.withSort insertionSort)
    (r := namesAnswer ["c", "a", "b"]) compares_sampleTexts sortsStably_insertionSort horder
    (by decide) rfl hobject (by unfold FitsBody; decide) (by decide) (by decide)).1

end

section

variable {x : Texts} {query : Values} {r : JsonResponse} {raw : List Json} {k : Nat}

/-- All pages of a query that sorts in descending order. -/
def descendingPages (x : Texts) (query : Values) (r : JsonResponse) (raw : List Json) (k : Nat) :
    List Json :=
  allPages (fun i => dataTableQuery x (paged i k query) r)
    (pageCount (satisfying x query raw).length k)

variable (hx : x.Compares) (hfield : query.get "sort" ≠ "")
  (horder : x.lowerText (query.get "order") = "desc") (hstatus : r.status < 300)
  (hdata : r.body.field? "data" = some (.arr raw)) (hobject : ∀ item ∈ raw, item.isObject = true)
  (hfits : FitsBody raw) (hk : 1 ≤ k) (hk' : k ≤ 100)

include hstatus hdata hobject hfits hk hk'

private theorem descendingPages_eq {sort : (Json → Json → Bool) → List Json → List Json}
    (hperm : (selectItems (x.withSort sort) query raw).Perm (satisfying x query raw)) :
    descendingPages (x.withSort sort) query r raw k = selectItems (x.withSort sort) query raw := by
  have hsize : ((selectItems (x.withSort sort) query raw).length : Int) + 100 ≤ maxInt := by
    apply size_of_fits hfits
    rw [hperm.length_eq]
    exact List.length_filter_le _ _
  have hpages := allPages_eq hstatus hdata hobject rfl hsize hk hk'
  rw [hperm.length_eq] at hpages
  exact hpages

include hx hfield horder

private theorem no_clash_of_pages
    (h : SortedBy (· ≥ ·) (x.sortKey (query.get "sort")) (satisfying x query raw)
      (descendingPages (x.withSort insertionSort) query r raw k)) :
    ∀ i ∈ satisfying x query raw, ∀ j ∈ satisfying x query raw,
      ¬Clash x (query.get "sort") i j := by
  have hselect : selectItems (x.withSort insertionSort) query raw =
      insertionSort (itemLess x (query.get "sort") "desc") (satisfying x query raw) := by
    rw [selectItems_eq hobject, if_neg hfield, ← horder]
    rfl
  have hperm : (selectItems (x.withSort insertionSort) query raw).Perm (satisfying x query raw) := by
    rw [hselect]
    exact perm_insertionSort _ _
  rw [descendingPages_eq hstatus hdata hobject hfits hk hk' hperm, hselect] at h
  exact no_clash_of_stable hx h

/-- Whatever stable sort there is, the pages in descending order are sorted and keep the order of
equal items exactly when no two texts of the field differ in their case only. -/
theorem descending_pages_iff :
    (∀ sort, SortsStably sort →
      SortedBy (· ≥ ·) (x.sortKey (query.get "sort")) (satisfying x query raw)
        (descendingPages (x.withSort sort) query r raw k)) ↔
      ∀ i ∈ satisfying x query raw, ∀ j ∈ satisfying x query raw,
        ¬Clash x (query.get "sort") i j := by
  constructor
  · intro hall
    exact no_clash_of_pages hx hfield horder hstatus hdata hobject hfits hk hk'
      (hall insertionSort sortsStably_insertionSort)
  · intro hclash sort hsort
    have hsorted : SortedBy (· ≥ ·) (x.sortKey (query.get "sort")) (satisfying x query raw)
        (selectItems (x.withSort sort) query raw) :=
      selectItems_descending (x := x.withSort sort) hx hsort horder hfield hobject hclash
    rw [descendingPages_eq hstatus hdata hobject hfits hk hk' hsorted.perm]
    exact hsorted

end

private theorem namesAnswer_object (names : List String) :
    ∀ item ∈ names.map fun name => Json.obj [("name", .str name)], item.isObject = true := by
  intro item hitem
  obtain ⟨name, -, rfl⟩ := List.mem_map.mp hitem
  rfl

/-- Insertion sort puts two names that differ in more than their case in order. -/
theorem descending_pages_of_names :
    @SortsStably Json insertionSort ∧
      SortedBy (· ≥ ·) (sampleTexts.sortKey "name")
        (satisfying sampleTexts [("sort", "name"), ("order", "DESC")]
          (["a", "b"].map fun name => Json.obj [("name", .str name)]))
        (descendingPages (sampleTexts.withSort insertionSort)
          [("sort", "name"), ("order", "DESC")] (namesAnswer ["a", "b"])
          (["a", "b"].map fun name => Json.obj [("name", .str name)]) 10) := by
  let query : Values := [("sort", "name"), ("order", "DESC")]
  have hsort : query.get "sort" ≠ "" := by decide
  have horder : sampleTexts.lowerText (query.get "order") = "desc" := by decide
  refine ⟨sortsStably_insertionSort, ?_⟩
  apply (descending_pages_iff compares_sampleTexts hsort horder (by decide) rfl
    (namesAnswer_object ["a", "b"]) (by unfold FitsBody; decide) (by decide) (by decide)).mpr
  · intro i hi j hj hclash
    obtain ⟨n, hn, rfl⟩ := List.mem_map.mp (List.mem_filter.mp hi).1
    obtain ⟨m, hm, rfl⟩ := List.mem_map.mp (List.mem_filter.mp hj).1
    simp only [List.mem_cons, List.not_mem_nil, or_false] at hn hm
    rcases hn with rfl | rfl
    · rcases hm with rfl | rfl
      · exact hclash.2 rfl
      · exact absurd hclash.1 (by decide)
    · rcases hm with rfl | rfl
      · exact absurd hclash.1 (by decide)
      · exact hclash.2 rfl
  · exact sortsStably_insertionSort

/-- The name that comes second is put first when it differs from the first in its case only. -/
theorem case_only_reordered : ¬∀ (x : Texts) (query : Values) (r : JsonResponse) (raw : List Json)
    (k : Nat), x.Compares → SortsStably x.sliceStable → query.get "sort" ≠ "" →
    x.lowerText (query.get "order") = "desc" → r.status < 300 →
    r.body.field? "data" = some (.arr raw) → (∀ item ∈ raw, item.isObject = true) → FitsBody raw →
    1 ≤ k → k ≤ 100 →
    SortedBy (· ≥ ·) (x.sortKey (query.get "sort")) (satisfying x query raw)
      (descendingPages x query r raw k) := by
  intro hclaim
  have h := hclaim (sampleTexts.withSort insertionSort) [("sort", "name"), ("order", "desc")]
    (namesAnswer ["a", "A"]) (["a", "A"].map fun name => Json.obj [("name", .str name)]) 10
    compares_sampleTexts sortsStably_insertionSort (by decide) (by decide) (by decide) rfl
    (namesAnswer_object ["a", "A"]) (by unfold FitsBody; decide) (by decide) (by decide)
  have hclash := no_clash_of_pages (x := sampleTexts) compares_sampleTexts (by decide) (by decide)
    (by decide) rfl (namesAnswer_object ["a", "A"]) (by unfold FitsBody; decide) (by decide)
    (by decide) h
  have hmem : ∀ name ∈ ["a", "A"], Json.obj [("name", .str name)] ∈
      satisfying sampleTexts [("sort", "name"), ("order", "desc")]
        (["a", "A"].map fun name => Json.obj [("name", .str name)]) := by
    intro name hname
    have hsatisfies : Satisfies sampleTexts [("sort", "name"), ("order", "desc")]
        (.obj [("name", .str name)]) := satisfies_plain rfl rfl _
    exact List.mem_filter.mpr ⟨List.mem_map.mpr ⟨name, hname, rfl⟩, decide_eq_true hsatisfies⟩
  exact hclash _ (hmem "a" (by decide)) _ (hmem "A" (by decide)) ⟨by decide, by decide⟩

end NotificationPlatform
