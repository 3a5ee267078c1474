import Mathlib.Data.Finset.Sort
import Mathlib.Data.String.Basic

/-!
# Route patterns

Patterns of a method and a path with one-segment wildcards, as an `http.ServeMux` takes them, and
what a table of them does with a request. Where no two patterns of a table meet, at most one of
them matches a request, so neither the order of the table nor a rule of precedence matters.
Patterns for subtrees and for the rest of a path are not modelled.
-/

namespace Lib.Routes

inductive Segment where
  | literal (text : String)
  | wildcard (name : String)
  deriving DecidableEq, Repr

structure Pattern where
  method : String
  segments : List Segment
  deriving DecidableEq, Repr

def Segment.parse (cs : List Char) : Segment :=
  match cs with
  | '\x7b' :: rest => .wildcard (String.ofList rest.dropLast)
  | _ => .literal (String.ofList cs)

def Pattern.ofChars (cs : List Char) : Pattern where
  method := String.ofList (cs.takeWhile (· != ' '))
  segments := (((cs.dropWhile (· != ' ')).drop 1).splitOn '/').tail.map Segment.parse

def Pattern.parse (text : String) : Pattern := .ofChars text.toList

/-- The pattern is for the method; `GET` is for `HEAD` too. -/
def Pattern.accepts (p : Pattern) (method : String) : Bool :=
  p.method == method || (p.method == "GET" && method == "HEAD")

/-- The segments of a path match those of a pattern: the values of the wildcards. A wildcard does
not match the slash at the end of a path. -/
def matchSegments : List Segment → List String → Option (List (String × String))
  | [], [] => some []
  | .literal text :: ps, s :: ss => if s = text then matchSegments ps ss else none
  | .wildcard name :: ps, s :: ss =>
      if s = "/" then none else (matchSegments ps ss).map ((name, s) :: ·)
  | _, _ => none

/-- `cleanPath` on the parts of a path between slashes, the kept ones in reverse. -/
def cleanParts : List (List Char) → List (List Char) → List (List Char)
  | kept, [] => kept.reverse
  | kept, part :: parts =>
      if part = [] ∨ part = ['.'] then cleanParts kept parts
      else if part = ['.', '.'] then cleanParts kept.tail parts
      else cleanParts (part :: kept) parts

def cleanPath (path : String) : String :=
  let parts := path.toList.splitOn '/'
  let cleaned := cleanParts [] parts
  let body := cleaned.flatMap fun part => '/' :: part
  if cleaned = [] then "/"
  else if parts.getLast? = some [] then String.ofList (body ++ ['/'])
  else String.ofList body

/-- The segments of a clean path, each unescaped; a slash at the end is one of its own. -/
def pathSegments (unescape : String → String) (path : String) : List String :=
  let parts := (path.toList.splitOn '/').tail
  let segments := parts.dropLast.map fun part => unescape (String.ofList part)
  match parts.getLast? with
  | none => []
  | some [] => segments ++ ["/"]
  | some part => segments ++ [unescape (String.ofList part)]

inductive Dispatch (α : Type) where
  | found (a : α) (values : List (String × String))
  /-- patterns for other methods match the path -/
  | notAllowed (methods : List String)
  | notFound

section

variable {α : Type}

def matching (table : List (Pattern × α)) (method : String) (segments : List String) :
    List (α × List (String × String)) :=
  table.filterMap fun r =>
    if r.1.accepts method then (matchSegments r.1.segments segments).map (r.2, ·) else none

def matchingMethods (table : List (Pattern × α)) (segments : List String) : List String :=
  let methods := (table.filter fun r => (matchSegments r.1.segments segments).isSome).map
    fun r => r.1.method
  ((if "GET" ∈ methods then "HEAD" :: methods else methods).toFinset).sort (· ≤ ·)

/-- `findHandler`, up to the choice between several patterns that match. -/
def dispatch (table : List (Pattern × α)) (method : String) (segments : List String) :
    Dispatch α :=
  match matching table method segments with
  | (a, values) :: _ => .found a values
  | [] => match matchingMethods table segments with
      | [] => .notFound
      | methods => .notAllowed methods

/-! ## Patterns that meet -/

def Segment.meets : Segment → Segment → Bool
  | .literal a, .literal b => a == b
  | _, _ => true

def segmentsMeet : List Segment → List Segment → Bool
  | [], [] => true
  | a :: as, b :: bs => a.meets b && segmentsMeet as bs
  | _, _ => false

def Pattern.meets (p q : Pattern) : Bool :=
  (p.method == q.method || (p.method == "GET" && q.method == "HEAD") ||
    (p.method == "HEAD" && q.method == "GET")) && segmentsMeet p.segments q.segments

def separate : List (Pattern × α) → Bool
  | [] => true
  | r :: rest => rest.all (fun q => !r.1.meets q.1) && separate rest

/-- The characters of the patterns of a table. A literal unifies with the text of its characters,
while the kernel is slow to compute them from it. -/
inductive Spelled : List (Pattern × α) → List (List Char) → Prop
  | nil : Spelled [] []
  | cons {cs : List Char} {a : α} {table : List (Pattern × α)} {texts : List (List Char)}
      (h : Spelled table texts) : Spelled ((.parse (String.ofList cs), a) :: table) (cs :: texts)

theorem Spelled.append {table table' : List (Pattern × α)} {texts texts' : List (List Char)}
    (h : Spelled table texts) (h' : Spelled table' texts') :
    Spelled (table ++ table') (texts ++ texts') := by
  induction h with
  | nil => exact h'
  | cons _ ih => exact .cons ih

theorem separate_sublist {table table' : List (Pattern × α)} (hsub : table.Sublist table')
    (h : separate table' = true) : separate table = true := by
  induction hsub with
  | slnil => rfl
  | cons r _ ih => exact ih (Bool.and_eq_true_iff.mp h).2
  | cons_cons r hsub ih =>
      obtain ⟨hfirst, hrest⟩ := Bool.and_eq_true_iff.mp h
      rw [separate, ih hrest, Bool.and_true, List.all_eq_true]
      exact fun q hq => List.all_eq_true.mp hfirst q (hsub.subset hq)

theorem separate_of_spelled {table : List (Pattern × α)} {texts : List (List Char)}
    (h : Spelled table texts)
    (hseparate : separate (texts.map fun cs => (Pattern.ofChars cs, ())) = true) :
    separate table = true := by
  have hmap : table.map Prod.fst = texts.map Pattern.ofChars := by
    clear hseparate
    induction h with
    | nil => rfl
    | cons _ ih => simp [ih, Pattern.parse]
  have hfst : ∀ {β : Type} (t : List (Pattern × β)) (ps : List Pattern), t.map Prod.fst = ps →
      separate t = separate (ps.map fun p => (p, ())) := by
    intro β t ps hps
    induction t generalizing ps with
    | nil => simp [← hps, separate]
    | cons r rest ih =>
        subst hps
        simp [separate, ih _ rfl, List.all_map, Function.comp_def]
  rw [hfst table _ hmap, ← hseparate]
  simp [List.map_map, Function.comp_def]

theorem segmentsMeet_of_match {ps qs : List Segment} {ss : List String}
    (hp : (matchSegments ps ss).isSome = true) (hq : (matchSegments qs ss).isSome = true) :
    segmentsMeet ps qs = true := by
  induction ps generalizing qs ss with
  | nil =>
      cases ss with
      | nil => cases qs <;> simp_all [matchSegments, segmentsMeet]
      | cons s ss => simp [matchSegments] at hp
  | cons p ps ih =>
      cases ss with
      | nil => cases p <;> simp [matchSegments] at hp
      | cons s ss =>
          cases qs with
          | nil => simp [matchSegments] at hq
          | cons q qs =>
              -- the rest of the path matches the rests of both patterns
              have hrest : ∀ {p : Segment} {ps : List Segment},
                  (matchSegments (p :: ps) (s :: ss)).isSome = true →
                    (matchSegments ps ss).isSome = true ∧ ∀ text, p = .literal text → s = text := by
                intro p ps h
                cases p with
                | literal text =>
                    by_cases hs : s = text <;> simp_all [matchSegments]
                | wildcard name =>
                    by_cases hs : s = "/" <;> simp_all [matchSegments]
              obtain ⟨hp, hptext⟩ := hrest hp
              obtain ⟨hq, hqtext⟩ := hrest hq
              rw [segmentsMeet, ih hp hq, Bool.and_true]
              cases p with
              | wildcard name => rfl
              | literal text =>
                  cases q with
                  | wildcard name => rfl
                  | literal text' => simp [Segment.meets, ← hptext text rfl, ← hqtext text' rfl]

theorem Pattern.meets_of_match {p q : Pattern} {method : String} {ss : List String}
    (hp : p.accepts method = true) (hq : q.accepts method = true)
    (hps : (matchSegments p.segments ss).isSome = true)
    (hqs : (matchSegments q.segments ss).isSome = true) : p.meets q = true := by
  rw [Pattern.meets, segmentsMeet_of_match hps hqs, Bool.and_true]
  simp only [Pattern.accepts, Bool.or_eq_true, Bool.and_eq_true, beq_iff_eq] at hp hq ⊢
  rcases hp with hp | ⟨hp, rfl⟩
  · rcases hq with hq | ⟨hq, rfl⟩
    · exact .inl (.inl (hp.trans hq.symm))
    · exact .inr ⟨hp, hq⟩
  · rcases hq with hq | ⟨hq, -⟩
    · exact .inl (.inr ⟨hp, hq⟩)
    · exact .inl (.inl (hp.trans hq.symm))

theorem matching_length_le_one {table : List (Pattern × α)} (h : separate table = true)
    (method : String) (ss : List String) : (matching table method ss).length ≤ 1 := by
  induction table with
  | nil => simp [matching]
  | cons r rest ih =>
      rw [separate, Bool.and_eq_true, List.all_eq_true] at h
      by_cases hmatch : r.1.accepts method = true ∧ (matchSegments r.1.segments ss).isSome = true
      · -- nothing of the rest matches beside the first entry
        have hnone : matching rest method ss = [] := by
          rw [matching, List.filterMap_eq_nil_iff]
          intro q hq
          have hapart := h.1 q hq
          by_contra hsome
          have hq' : q.1.accepts method = true ∧ (matchSegments q.1.segments ss).isSome = true := by
            by_cases ha : q.1.accepts method = true
            · refine ⟨ha, Option.isSome_iff_ne_none.mpr fun hnone => hsome ?_⟩
              simp [ha, hnone]
            · simp [ha] at hsome
          simp [Pattern.meets_of_match hmatch.1 hq'.1 hmatch.2 hq'.2] at hapart
        obtain ⟨values, hvalues⟩ := Option.isSome_iff_exists.mp hmatch.2
        rw [matching, List.filterMap_cons_some (b := (r.2, values)) (by simp [hmatch.1, hvalues]),
          ← matching, hnone]
        simp
      · have hskip : matching (r :: rest) method ss = matching rest method ss := by
          rw [matching, List.filterMap_cons_none, ← matching]
          by_cases ha : r.1.accepts method = true
          · simpa [ha] using fun hsome => hmatch ⟨ha, hsome⟩
          · simp [ha]
        rw [hskip]
        exact ih h.2

theorem matchingMethods_perm {table table' : List (Pattern × α)} (h : table.Perm table')
    (ss : List String) : matchingMethods table ss = matchingMethods table' ss := by
  have hmethods := (h.filter fun r => (matchSegments r.1.segments ss).isSome).map
    fun r => r.1.method
  simp only [matchingMethods, hmethods.mem_iff]
  split
  · rw [List.toFinset_eq_of_perm _ _ (hmethods.cons "HEAD")]
  · rw [List.toFinset_eq_of_perm _ _ hmethods]

theorem dispatch_perm {table table' : List (Pattern × α)} (hperm : table.Perm table')
    (hseparate : separate table = true) (method : String) (ss : List String) :
    dispatch table method ss = dispatch table' method ss := by
  have hmatching : matching table method ss = matching table' method ss := by
    have hperm' : (matching table method ss).Perm (matching table' method ss) :=
      hperm.filterMap _
    have hlength := matching_length_le_one hseparate method ss
    cases hone : matching table method ss with
    | nil => rw [hone] at hperm'; exact hperm'.nil_eq
    | cons x xs =>
        rw [hone] at hperm' hlength
        obtain rfl : xs = [] := by simpa using hlength
        exact List.singleton_perm.mp hperm'
  simp only [dispatch, hmatching, matchingMethods_perm hperm]

theorem dispatch_found {table : List (Pattern × α)} {method : String} {ss : List String} {a : α}
    {values : List (String × String)} (h : dispatch table method ss = .found a values) :
    ∃ p, (p, a) ∈ table ∧ p.accepts method = true ∧ matchSegments p.segments ss = some values := by
  unfold dispatch at h
  split at h
  · next hmatching =>
      obtain ⟨rfl, rfl⟩ := Dispatch.found.inj h
      have hmem : (_, _) ∈ matching table method ss := hmatching ▸ List.mem_cons_self
      obtain ⟨r, hr, hsome⟩ := List.mem_filterMap.mp hmem
      split at hsome
      · next ha =>
          obtain ⟨values', hvalues, heq⟩ := Option.map_eq_some_iff.mp hsome
          obtain ⟨rfl, rfl⟩ := Prod.mk.inj heq
          exact ⟨r.1, hr, ha, hvalues⟩
      · simp at hsome
  · split at h <;> simp at h

end

end Lib.Routes
