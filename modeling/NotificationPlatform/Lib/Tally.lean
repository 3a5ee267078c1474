import Mathlib.Data.List.AList
import Mathlib.Algebra.BigOperators.Group.List.Lemmas
import Mathlib.Data.List.Dedup
import Mathlib.Algebra.Ring.Nat

/-!
# Counting under keys

A tally counts how often each key was seen. Relabelled, its counts stand under a name of each key;
of the keys that share a name only the one handled last keeps its count.
-/

namespace Lib

variable {κ ν : Type} [DecidableEq κ] [DecidableEq ν]

abbrev Counts (κ : Type) := AList fun _ : κ => Nat

namespace Counts

def countOf (m : Counts κ) (k : κ) : Nat := (m.lookup k).getD 0

def bump (m : Counts κ) (k : κ) : Counts κ := m.insert k (countOf m k + 1)

def tally (ks : List κ) : Counts κ := ks.foldl bump ∅

def total (m : Counts κ) : Nat := (m.entries.map Sigma.snd).sum

def relabel (name : κ → ν) (es : List (Sigma fun _ : κ => Nat)) : Counts ν :=
  es.foldl (fun m e => m.insert (name e.1) e.2) ∅

/-- An order in which a loop visits the entries of a map. -/
abbrev Iteration (κ : Type) [DecidableEq κ] :=
  (m : Counts κ) → {es : List (Sigma fun _ : κ => Nat) // es.Perm m.entries}

def lastNamed (name : κ → ν) : List κ → List κ
  | [] => []
  | k :: ks => if name k ∈ ks.map name then lastNamed name ks else k :: lastNamed name ks

theorem countOf_bump (m : Counts κ) (k k' : κ) :
    countOf (bump m k) k' = countOf m k' + if k' = k then 1 else 0 := by
  by_cases hk : k' = k
  · subst hk
    simp [bump, countOf]
  · simp [bump, countOf, AList.lookup_insert_ne hk, hk]

private theorem countOf_foldl (ks : List κ) (m : Counts κ) (k : κ) :
    countOf (ks.foldl bump m) k = countOf m k + ks.count k := by
  induction ks generalizing m with
  | nil => simp
  | cons k' ks ih =>
      rw [List.foldl_cons, ih, countOf_bump, List.count_cons]
      by_cases hk : k = k'
      · simp only [hk, if_true, beq_self_eq_true]
        omega
      · have hk' : (k' == k) = false := by simpa using Ne.symm hk
        simp [hk, hk']

theorem countOf_tally (ks : List κ) (k : κ) : countOf (tally ks) k = ks.count k := by
  have h := countOf_foldl ks ∅ k
  rw [tally, h]
  simp [countOf]

private theorem mem_foldl (ks : List κ) (m : Counts κ) (k : κ) :
    k ∈ ks.foldl bump m ↔ k ∈ m ∨ k ∈ ks := by
  induction ks generalizing m with
  | nil => simp
  | cons k' ks ih =>
      rw [List.foldl_cons, ih, bump, AList.mem_insert, List.mem_cons]
      tauto

theorem mem_tally {ks : List κ} {k : κ} : k ∈ tally ks ↔ k ∈ ks := by
  have h := mem_foldl ks ∅ k
  simpa [tally] using h

theorem count_of_mem_tally {ks : List κ} {e : Sigma fun _ : κ => Nat}
    (h : e ∈ (tally ks).entries) : e.2 = ks.count e.1 := by
  have hlookup : (tally ks).lookup e.1 = some e.2 := AList.mem_lookup_iff.mpr h
  rw [← countOf_tally, countOf, hlookup, Option.getD_some]

omit [DecidableEq κ] in
theorem lastNamed_subset {name : κ → ν} {ks : List κ} : lastNamed name ks ⊆ ks := by
  induction ks with
  | nil => simp [lastNamed]
  | cons k ks ih =>
      rw [lastNamed]
      split
      · exact List.subset_cons_of_subset k ih
      · exact List.cons_subset_cons k ih

private theorem kerase_eq_filter {es : List (Sigma fun _ : ν => Nat)} (h : es.NodupKeys) (l : ν) :
    es.kerase l = es.filter fun e => e.1 ≠ l := by
  induction es with
  | nil => rfl
  | cons e es ih =>
      rw [List.nodupKeys_cons] at h
      by_cases he : l = e.1
      · subst he
        rw [List.kerase_cons_eq rfl, List.filter_cons_of_neg (by simp)]
        refine (List.filter_eq_self.mpr fun e' he' => ?_).symm
        have hkey : e'.1 ∈ es.keys := List.mem_keys_of_mem he'
        have hne : e'.1 ≠ e.1 := by
          intro heq
          exact h.1 (by rw [← heq]; exact hkey)
        simpa using hne
      · rw [List.kerase_cons_ne he, ih h.2, List.filter_cons_of_pos (by simpa using Ne.symm he)]

omit [DecidableEq κ] in
theorem mem_map_lastNamed {name : κ → ν} {ks : List κ} {l : ν} :
    l ∈ (lastNamed name ks).map name ↔ l ∈ ks.map name := by
  induction ks with
  | nil => simp [lastNamed]
  | cons k ks ih =>
      rw [lastNamed, List.map_cons, List.mem_cons, ← ih]
      split
      · next hin =>
          constructor
          · exact Or.inr
          · rintro (rfl | hl)
            · exact ih.mpr hin
            · exact hl
      · rw [List.map_cons, List.mem_cons]

omit [DecidableEq κ] in
theorem nodup_map_lastNamed (name : κ → ν) (ks : List κ) :
    ((lastNamed name ks).map name).Nodup := by
  induction ks with
  | nil => exact List.nodup_nil
  | cons k ks ih =>
      rw [lastNamed]
      split
      · exact ih
      · next hnot =>
          rw [List.map_cons, List.nodup_cons]
          exact ⟨fun hin => hnot (mem_map_lastNamed.mp hin), ih⟩

omit [DecidableEq κ] in
theorem lastNamed_concat (name : κ → ν) (ks : List κ) (k : κ) :
    lastNamed name (ks ++ [k]) = (lastNamed name ks).filter (fun k' => name k' ≠ name k) ++ [k] := by
  induction ks with
  | nil => simp [lastNamed]
  | cons k' ks ih =>
      rw [List.cons_append, lastNamed, lastNamed, List.map_append, ih]
      by_cases hin : name k' ∈ ks.map name
      · rw [if_pos (List.mem_append_left _ hin), if_pos hin]
      · rw [if_neg hin]
        by_cases hname : name k' = name k
        · rw [if_pos (by simp [hname]), List.filter_cons_of_neg (by simp [hname])]
        · rw [if_neg (by simpa [hname] using hin), List.filter_cons_of_pos (by simp [hname]),
            List.cons_append]

private def totalOutside (m : Counts ν) (names : List ν) : Nat :=
  ((m.entries.filter fun e => e.1 ∉ names).map Sigma.snd).sum

private theorem totalOutside_insert (m : Counts ν) (l : ν) (n : Nat) (names : List ν) :
    totalOutside (m.insert l n) names =
      totalOutside m (l :: names) + if l ∈ names then 0 else n := by
  have hrest : ((m.entries.filter fun e => e.1 ≠ l).filter fun e => e.1 ∉ names) =
      m.entries.filter fun e => e.1 ∉ l :: names := by
    rw [List.filter_filter]
    refine List.filter_congr fun e _ => ?_
    simp only [List.mem_cons, not_or, Bool.decide_and, Bool.and_comm]
  rw [totalOutside, AList.entries_insert, kerase_eq_filter m.nodupKeys, totalOutside, ← hrest]
  by_cases hl : l ∈ names
  · rw [List.filter_cons_of_neg (by simpa using hl), if_pos hl, Nat.add_zero]
  · rw [List.filter_cons_of_pos (by simpa using hl), if_neg hl, List.map_cons, List.sum_cons,
      Nat.add_comm]

private theorem total_foldl (name : κ → ν) (es : List (Sigma fun _ : κ => Nat))
    (hes : es.NodupKeys) (m : Counts ν) :
    total (es.foldl (fun m e => m.insert (name e.1) e.2) m) =
      totalOutside m (es.map fun e => name e.1) +
        ((es.filter fun e => e.1 ∈ lastNamed name es.keys).map Sigma.snd).sum := by
  induction es generalizing m with
  | nil => simp [total, totalOutside]
  | cons e es ih =>
      rw [List.nodupKeys_cons] at hes
      rw [List.foldl_cons, ih hes.2, totalOutside_insert, List.map_cons, List.keys_cons, lastNamed]
      have hkeys : es.keys.map name = es.map fun e => name e.1 := by
        rw [List.keys, List.map_map]
        rfl
      rw [hkeys]
      by_cases hname : name e.1 ∈ es.map fun e => name e.1
      · have hout : e.1 ∉ lastNamed name es.keys := fun hin => hes.1 (lastNamed_subset hin)
        rw [if_pos hname, if_pos hname, List.filter_cons_of_neg (by simpa using hout), Nat.add_zero]
      · have hsame : (es.filter fun e' => e'.1 ∈ e.1 :: lastNamed name es.keys) =
            es.filter fun e' => e'.1 ∈ lastNamed name es.keys := by
          apply List.filter_congr
          intro e' he'
          have hne : e'.1 ≠ e.1 := by
            intro heq
            exact hes.1 (by rw [← heq]; exact List.mem_keys_of_mem he')
          simp [hne]
        rw [if_neg hname, if_neg hname, List.filter_cons_of_pos (by simp), hsame, List.map_cons,
          List.sum_cons, Nat.add_assoc]

theorem total_relabel (name : κ → ν) {es : List (Sigma fun _ : κ => Nat)} (hes : es.NodupKeys) :
    total (relabel name es) =
      ((es.filter fun e => e.1 ∈ lastNamed name es.keys).map Sigma.snd).sum := by
  have h := total_foldl name es hes ∅
  rw [relabel, h]
  simp [totalOutside]

theorem keys_perm_dedup {ks : List κ} {es : List (Sigma fun _ : κ => Nat)}
    (hes : es.Perm (tally ks).entries) : es.keys.Perm ks.dedup := by
  have hnodup : es.NodupKeys := (List.perm_nodupKeys hes).mpr (tally ks).nodupKeys
  apply (List.perm_ext_iff_of_nodup hnodup ks.nodup_dedup).mpr
  intro k
  rw [List.mem_dedup]
  exact (hes.map Sigma.fst).mem_iff.trans mem_tally

/-- Relabel a tally, its entries taken in any order: the total is the sum of the counts of the keys
that are last of their name in that order. -/
theorem total_relabel_tally (name : κ → ν) (ks : List κ) {es : List (Sigma fun _ : κ => Nat)}
    (hes : es.Perm (tally ks).entries) :
    total (relabel name es) = ((lastNamed name es.keys).map ks.count).sum := by
  have hnodup : es.NodupKeys := (List.perm_nodupKeys hes).mpr (tally ks).nodupKeys
  have hcount : ∀ e ∈ es, e.2 = ks.count e.1 := fun e he => count_of_mem_tally (hes.mem_iff.mp he)
  have hvalues : (es.filter fun e => e.1 ∈ lastNamed name es.keys).map Sigma.snd =
      (es.keys.filter (· ∈ lastNamed name es.keys)).map ks.count := by
    rw [List.keys, List.filter_map, List.map_map]
    apply List.map_congr_left
    intro e he
    exact hcount e (List.mem_of_mem_filter he)
  have hkept : (es.keys.filter (· ∈ lastNamed name es.keys)).Perm (lastNamed name es.keys) := by
    apply (List.perm_ext_iff_of_nodup (List.Nodup.filter _ hnodup)
      (nodup_map_lastNamed name es.keys).of_map).mpr
    intro k
    simpa using fun hk => lastNamed_subset hk
  rw [total_relabel name hnodup, hvalues]
  exact (hkept.map _).sum_eq

/-- Where keys of one name occur equally often, a relabelled tally adds up to one such number for
each name, in whatever order its entries are taken. -/
theorem total_relabel_of_count {name : κ → ν} {ks : List κ} {n : ν → Nat}
    (hn : ∀ k ∈ ks, ks.count k = n (name k)) {es : List (Sigma fun _ : κ => Nat)}
    (hes : es.Perm (tally ks).entries) :
    total (relabel name es) = ((ks.map name).dedup.map n).sum := by
  have hkeys : ∀ k, k ∈ es.keys ↔ k ∈ ks := fun k =>
    (keys_perm_dedup hes).mem_iff.trans List.mem_dedup
  have hvalues : (lastNamed name es.keys).map ks.count =
      ((lastNamed name es.keys).map name).map n := by
    rw [List.map_map]
    apply List.map_congr_left
    intro k hk
    exact hn k ((hkeys k).mp (lastNamed_subset hk))
  have hnames : ((lastNamed name es.keys).map name).Perm (ks.map name).dedup := by
    apply (List.perm_ext_iff_of_nodup (nodup_map_lastNamed name es.keys) (List.nodup_dedup _)).mpr
    intro l
    rw [mem_map_lastNamed, List.mem_dedup]
    simp only [List.mem_map, hkeys]
  rw [total_relabel_tally name ks hes, hvalues]
  exact (hnames.map n).sum_eq

private theorem count_eq_of_total {name : κ → ν} {ks : List κ} {N : Nat}
    (h : ∀ es : List (Sigma fun _ : κ => Nat), es.Perm (tally ks).entries →
      total (relabel name es) = N)
    {k k' : κ} (hk : k ∈ ks) (hk' : k' ∈ ks) (hname : name k = name k') :
    ks.count k = ks.count k' := by
  by_cases hne : k = k'
  · rw [hne]
  have hmem : ∀ {x : κ}, x ∈ ks → (⟨x, ks.count x⟩ : Sigma fun _ : κ => Nat) ∈ (tally ks).entries := by
    intro x hx
    obtain ⟨n, hn⟩ := List.mem_keys.mp (mem_tally.mpr hx : x ∈ tally ks)
    rwa [← count_of_mem_tally hn]
  obtain ⟨rest, hrest⟩ : ∃ rest : List (Sigma fun _ : κ => Nat),
      (tally ks).entries.Perm (⟨k, ks.count k⟩ :: ⟨k', ks.count k'⟩ :: rest) := by
    have hsecond : (⟨k', ks.count k'⟩ : Sigma fun _ : κ => Nat) ∈
        (tally ks).entries.erase ⟨k, ks.count k⟩ := by
      apply (List.mem_erase_of_ne _).mpr (hmem hk')
      intro heq
      exact hne (congrArg Sigma.fst heq).symm
    exact ⟨_, (List.perm_cons_erase (hmem hk)).trans ((List.perm_cons_erase hsecond).cons _)⟩
  have htotal : ∀ e e' : Sigma fun _ : κ => Nat, name e.1 = name e'.1 →
      (tally ks).entries.Perm (e :: e' :: rest) →
      (((lastNamed name rest.keys).filter fun x => name x ≠ name e.1).map ks.count).sum +
        ks.count e.1 = N := by
    intro e e' hnames hentries
    have hperm : (rest ++ [e', e]).Perm (tally ks).entries :=
      (List.perm_append_comm.trans (List.Perm.swap e e' rest)).trans hentries.symm
    have hkeys : (rest ++ [e', e]).keys = rest.keys ++ [e'.1] ++ [e.1] := by simp [List.keys]
    have hsum := h _ hperm
    rw [total_relabel_tally name ks hperm, hkeys, lastNamed_concat, lastNamed_concat,
      List.filter_append, List.filter_cons_of_neg (by simp [hnames]), List.filter_nil,
      List.append_nil, List.filter_filter, List.map_append, List.sum_append] at hsum
    simpa only [hnames, Bool.and_self, List.map_singleton, List.sum_singleton] using hsum
  have hlast := htotal _ _ hname hrest
  have hlast' := htotal _ _ hname.symm (hrest.trans (List.Perm.swap _ _ rest))
  dsimp only at hlast hlast'
  rw [← hname] at hlast'
  omega

/-- A relabelled tally adds up to a number in whatever order its entries are taken just when keys of
one name occur equally often and these numbers, one for each name, add up to it. -/
theorem total_relabel_all_iff (name : κ → ν) (ks : List κ) (N : Nat) :
    (∀ es : List (Sigma fun _ : κ => Nat), es.Perm (tally ks).entries →
      total (relabel name es) = N) ↔
    ∃ n : ν → Nat, (∀ k ∈ ks, ks.count k = n (name k)) ∧ ((ks.map name).dedup.map n).sum = N := by
  constructor
  · intro h
    let n : ν → Nat := fun l => (ks.find? fun k => name k = l).elim 0 ks.count
    have hn : ∀ k ∈ ks, ks.count k = n (name k) := by
      intro k hk
      obtain ⟨k', hfound⟩ := Option.isSome_iff_exists.mp
        (List.find?_isSome.mpr ⟨k, hk, by simp⟩ : (ks.find? fun k' => name k' = name k).isSome)
      have hname : name k' = name k := by simpa using List.find?_some hfound
      have hcount := count_eq_of_total h hk (List.mem_of_find?_eq_some hfound) hname.symm
      simpa only [n, hfound, Option.elim_some] using hcount
    exact ⟨n, hn, (total_relabel_of_count hn (List.Perm.refl _)).symm.trans (h _ (List.Perm.refl _))⟩
  · rintro ⟨n, hn, hsum⟩ es hes
    exact (total_relabel_of_count hn hes).trans hsum

end Counts

end Lib
