import NotificationPlatform.LimiterRuns

/-!
# Fixed windows

A lifetime of a key begins with the `INCR` that creates it and ends a time to live after the `EXPIRE`
of the same call, however late that comes. Of the calls of a lifetime the first ones up to the
limit are let through, and an interval no longer than the time to live meets at most two lifetimes.
-/

namespace NotificationPlatform

open Lib

namespace Lifetime

def counter (ttl : Nat) (l : Lifetime) : Counter :=
  ⟨l.hits.length, l.expire.map fun t => t + ttl⟩

/-- The calls of a lifetime that have returned, with the time of their last command: the first
call returns after its `EXPIRE`, the others after their `INCR`. -/
def returns (l : Lifetime) : List Hit :=
  match l.hits with
  | [] => []
  | first :: rest =>
      match l.expire with
      | some t => ⟨first.call, t⟩ :: rest
      | none => rest

/-- The commands of a lifetime come after the first one, and before its end. -/
structure Sound (ttl now : Nat) (l : Lifetime) : Prop where
  first : ∃ first, l.hits.head? = some first ∧ (∀ h ∈ l.hits, first.time ≤ h.time) ∧
    ∀ t, l.expire = some t → first.time ≤ t
  past : ∀ h ∈ l.hits, h.time ≤ now
  expired : ∀ t, l.expire = some t → t ≤ now ∧ (0 < ttl → ∀ h ∈ l.hits, h.time < t + ttl)

/-- What a lifetime has left the call at one of its places with: an answer, or the `EXPIRE` still to
be made. -/
def Leaves (limit : Nat) (l : Lifetime) (j : Nat) (x : KeyCall) : Prop :=
  x.prog = .ret (.ok (decide (j < limit))) ∧ (j = 0 → l.expire ≠ none) ∨
    j = 0 ∧ l.expire = none ∧ x.Expiring

def Before (ttl : Nat) (l l' : Lifetime) : Prop :=
  ∃ t, l.expire = some t ∧ ∀ h ∈ l'.hits, t + ttl ≤ h.time

variable {ttl now now' : Nat} {l l' : Lifetime}

theorem Sound.mono (h : l.Sound ttl now) (hle : now ≤ now') : l.Sound ttl now' where
  first := h.first
  past x hx := (h.past x hx).trans hle
  expired t ht := ⟨(h.expired t ht).1.trans hle, (h.expired t ht).2⟩

theorem sound_new (i : Nat) : (⟨[⟨i, now⟩], none⟩ : Lifetime).Sound ttl now where
  first := ⟨⟨i, now⟩, rfl, by simp, by simp⟩
  past := by simp
  expired := by simp

theorem Sound.incr (h : l.Sound ttl now) (i : Nat)
    (hlive : ∀ t, l.expire = some t → now < t + ttl) :
    (⟨l.hits ++ [⟨i, now⟩], l.expire⟩ : Lifetime).Sound ttl now where
  first := by
    obtain ⟨first, hhead, hfirst, hexpire⟩ := h.first
    refine ⟨first, by simp [hhead], ?_, hexpire⟩
    intro x hx
    rcases List.mem_append.mp hx with hx | hx
    · exact hfirst x hx
    · obtain rfl := List.mem_singleton.mp hx
      exact h.past first (List.mem_of_head? hhead)
  past x hx := by
    rcases List.mem_append.mp hx with hx | hx
    · exact h.past x hx
    · obtain rfl := List.mem_singleton.mp hx
      exact le_refl now
  expired t ht := by
    refine ⟨(h.expired t ht).1, ?_⟩
    intro httl x hx
    rcases List.mem_append.mp hx with hx | hx
    · exact (h.expired t ht).2 httl x hx
    · obtain rfl := List.mem_singleton.mp hx
      exact hlive t ht

theorem Sound.expire (h : l.Sound ttl now) :
    (⟨l.hits, some now⟩ : Lifetime).Sound ttl now where
  first := by
    obtain ⟨first, hhead, hfirst, -⟩ := h.first
    refine ⟨first, hhead, hfirst, ?_⟩
    intro t ht
    obtain rfl := Option.some.inj ht
    exact h.past first (List.mem_of_head? hhead)
  past := h.past
  expired t ht := by
    obtain rfl := Option.some.inj ht
    refine ⟨le_refl now, ?_⟩
    intro httl x hx
    have hpast := h.past x hx
    omega

theorem mem_returns {r : Hit} (hr : r ∈ l.returns) :
    r ∈ l.hits ∨ l.expire = some r.time := by
  unfold returns at hr
  split at hr
  · simp at hr
  · next first rest hhits =>
      rw [hhits]
      split at hr
      · next t ht =>
          rcases List.mem_cons.mp hr with rfl | hr
          · exact .inr ht
          · exact .inl (List.mem_cons_of_mem _ hr)
      · exact .inl (List.mem_cons_of_mem _ hr)

theorem Sound.lt_end (h : l.Sound ttl now) (httl : 0 < ttl) {r : Hit} {t : Nat}
    (hr : r ∈ l.hits ∨ l.expire = some r.time) (ht : l.expire = some t) : r.time < t + ttl := by
  rcases hr with hr | hr
  · exact (h.expired t ht).2 httl r hr
  · obtain rfl := Option.some.inj (ht.symm.trans hr)
    omega

theorem Sound.end_le (h : l'.Sound ttl now) {r : Hit} {t : Nat}
    (hr : r ∈ l'.hits ∨ l'.expire = some r.time) (ht : ∀ x ∈ l'.hits, t + ttl ≤ x.time) :
    t + ttl ≤ r.time := by
  rcases hr with hr | hr
  · exact ht r hr
  · obtain ⟨first, hhead, -, hexpire⟩ := h.first
    exact (ht first (List.mem_of_head? hhead)).trans (hexpire _ hr)

theorem Sound.far {l₁ l₂ l₃ : Lifetime} (h₁ : l₁.Sound ttl now) (h₂ : l₂.Sound ttl now)
    (h₃ : l₃.Sound ttl now) (httl : 0 < ttl) (h₁₂ : l₁.Before ttl l₂)
    (h₂₃ : l₂.Before ttl l₃) {r r' : Hit} (hr : r ∈ l₁.hits ∨ l₁.expire = some r.time)
    (hr' : r' ∈ l₃.hits ∨ l₃.expire = some r'.time) : r.time + ttl < r'.time := by
  obtain ⟨t, ht, hafter⟩ := h₁₂
  obtain ⟨t', ht', hafter'⟩ := h₂₃
  obtain ⟨first, hhead, -, hexpire⟩ := h₂.first
  have hend : r.time < t + ttl := h₁.lt_end httl hr ht
  have hstart : t + ttl ≤ first.time := hafter first (List.mem_of_head? hhead)
  have hset : first.time ≤ t' := hexpire t' ht'
  have hlast : t' + ttl ≤ r'.time := h₃.end_le hr' hafter'
  omega

end Lifetime

private theorem length_filter_le_two {α : Type} {R : α → α → Prop} {p : α → Bool} {xs : List α}
    (hR : xs.Pairwise R)
    (hthree : ∀ a ∈ xs, ∀ b ∈ xs, ∀ c ∈ xs, R a b → R b c → p a = true → p c = true → False) :
    (xs.filter p).length ≤ 2 := by
  have hpairs := hR.filter p
  have hmem : ∀ a ∈ xs.filter p, a ∈ xs ∧ p a = true := fun a ha => List.mem_filter.mp ha
  rcases hfilter : xs.filter p with _ | ⟨a, _ | ⟨b, _ | ⟨c, rest⟩⟩⟩
  · simp
  · simp
  · simp
  · rw [hfilter] at hpairs hmem
    have ha := hmem a (by simp)
    have hb := hmem b (by simp)
    have hc := hmem c (by simp)
    have hab : R a b := (List.pairwise_cons.mp hpairs).1 b (by simp)
    have hbc : R b c := (List.pairwise_cons.mp (List.pairwise_cons.mp hpairs).2).1 c (by simp)
    exact (hthree a ha.1 b hb.1 c hc.1 hab hbc ha.2 hc.2).elim

private theorem countP_flatMap_le {α β : Type} {f : α → List β} {p : β → Bool} {n : Nat}
    {xs : List α} (h : ∀ x ∈ xs, (f x).countP p ≤ n) :
    (xs.flatMap f).countP p ≤ n * (xs.filter fun x => (f x).any p).length := by
  induction xs with
  | nil => simp
  | cons x xs ih =>
      have hrest := ih fun y hy => h y (List.mem_cons_of_mem _ hy)
      have hx := h x (by simp)
      rw [List.flatMap_cons, List.countP_append, List.filter_cons]
      by_cases hany : (f x).any p = true
      · rw [if_pos hany, List.length_cons, Nat.mul_succ]
        omega
      · have hzero : (f x).countP p = 0 := by
          rw [List.countP_eq_zero]
          intro y hy hp
          exact hany (List.any_eq_true.mpr ⟨y, hy, hp⟩)
        rw [if_neg hany, hzero]
        omega

private theorem countP_le_of_index {α : Type} {p : α → Bool} {xs : List α} {n : Nat}
    (h : ∀ j x, xs[j]? = some x → p x = true → j < n) : xs.countP p ≤ n := by
  have hdrop : (xs.drop n).countP p = 0 := by
    rw [List.countP_eq_zero]
    intro x hx hp
    obtain ⟨j, hj⟩ := List.mem_iff_getElem?.mp hx
    rw [List.getElem?_drop] at hj
    have hlt := h _ x hj hp
    omega
  have htake : (xs.take n).countP p ≤ n := by
    have hle := (List.countP_le_length : (xs.take n).countP p ≤ _)
    have hlen : (xs.take n).length ≤ n := by simp
    omega
  rw [← List.take_append_drop n xs, List.countP_append, hdrop]
  omega

namespace LimiterWorld

variable {w w' : LimiterWorld} {e : LimiterEvent}

def answer (w : LimiterWorld) (i : Nat) : Option Bool :=
  match w.calls[i]? with
  | some x =>
      match x.prog with
      | .ret (.ok b) => some b
      | _ => none
  | none => none

/-- All calls of a key have the same limit and window, no command of theirs fails, and none of them
stops. -/
def Constant (key : String) (limit window : Nat) (w : LimiterWorld) : LimiterEvent → Prop
  | .wait _ => True
  | .allowKey key' limit' window' => key' = key → limit' = limit ∧ window' = window
  | .step i fail => ∀ x, w.calls[i]? = some x → x.key = key → fail = false
  | .stop i => ∀ x, w.calls[i]? = some x → x.key ≠ key

def Counts (w : LimiterWorld) (key : String) (i : Nat) : Prop :=
  ∃ l ∈ w.history key, ∃ h ∈ l.hits, h.call = i

theorem counts_concat {key : String} {i : Nat} {before : List Lifetime} {last : Lifetime}
    (h : w.history key = before ++ [last]) :
    w.Counts key i ↔ (∃ l ∈ before, ∃ x ∈ l.hits, x.call = i) ∨ ∃ x ∈ last.hits, x.call = i := by
  simp only [Counts, h, List.mem_append, List.mem_singleton, or_and_right, exists_or,
    exists_eq_left]

/-- The counter of a key and the calls of the key agree with its lifetimes. -/
structure Metered (key : String) (limit window : Nat) (w : LimiterWorld) : Prop where
  wellFormed : w.WellFormed
  constant : ∀ (i : Nat) (x : KeyCall), w.calls[i]? = some x → x.key = key →
    x.limit = limit ∧ x.window = window
  counter : w.state.keys key =
    (w.history key).getLast?.map (Lifetime.counter (RateLimit.ttl window))
  sound : ∀ l ∈ w.history key, l.Sound (RateLimit.ttl window) w.state.now
  apart : (w.history key).Pairwise (Lifetime.Before (RateLimit.ttl window))
  distinct : ((w.history key).flatMap fun l => l.hits.map Hit.call).Nodup
  outcome : ∀ l ∈ w.history key, ∀ (j : Nat) (h : Hit), l.hits[j]? = some h →
    ∃ x, w.calls[h.call]? = some x ∧ x.key = key ∧ l.Leaves limit j x
  recorded : ∀ (i : Nat) (x : KeyCall), w.calls[i]? = some x → x.key = key → x.Ready ∨ w.Counts key i
  pending : ∀ (i : Nat) (x : KeyCall), w.calls[i]? = some x → x.key = key → x.Expiring →
    ∃ l h, (w.history key).getLast? = some l ∧ l.expire = none ∧ l.hits.head? = some h ∧ h.call = i

section

variable {key : String} {limit window i : Nat} {x : KeyCall}

theorem Metered.unhit (hw : w.Metered key limit window) (hx : w.calls[i]? = some x)
    (hready : x.Ready) {l : Lifetime} (hl : l ∈ w.history key) {h : Hit} (hh : h ∈ l.hits) :
    h.call ≠ i := by
  rintro rfl
  obtain ⟨j, hj⟩ := List.mem_iff_getElem?.mp hh
  obtain ⟨y, hy, -, ⟨hret, -⟩ | ⟨-, -, hexpiring⟩⟩ := hw.outcome l hl j h hj
  · obtain rfl := Option.some.inj (hx.symm.trans hy)
    rw [KeyCall.Ready, hret, KeyCall.allowKey_eq] at hready
    simp at hready
  · obtain rfl := Option.some.inj (hx.symm.trans hy)
    exact hready.not_expiring hexpiring

theorem Metered.frame (hw : w.Metered key limit window) (hformed : w'.WellFormed)
    (hkeys : w'.state.keys key = w.state.keys key) (hhistory : w'.history key = w.history key)
    (hnow : w.state.now ≤ w'.state.now)
    (hold : ∀ (j : Nat) (y : KeyCall), w.calls[j]? = some y → y.key = key → w'.calls[j]? = some y)
    (hnew : ∀ (j : Nat) (y : KeyCall), w'.calls[j]? = some y → y.key = key →
      w.calls[j]? = some y ∨ y.Ready ∧ y.limit = limit ∧ y.window = window) :
    w'.Metered key limit window where
  wellFormed := hformed
  constant j y hy hkey := by
    rcases hnew j y hy hkey with hy | ⟨-, hlimits⟩
    · exact hw.constant j y hy hkey
    · exact hlimits
  counter := by rw [hkeys, hhistory, hw.counter]
  sound l hl := (hw.sound l (hhistory ▸ hl)).mono hnow
  apart := by rw [hhistory]; exact hw.apart
  distinct := by rw [hhistory]; exact hw.distinct
  outcome l hl j h hj := by
    obtain ⟨y, hy, hkey, hout⟩ := hw.outcome l (hhistory ▸ hl) j h hj
    exact ⟨y, hold _ y hy hkey, hkey, hout⟩
  pending j y hy hkey hexpiring := by
    rw [hhistory]
    rcases hnew j y hy hkey with hy | ⟨hready, -⟩
    · exact hw.pending j y hy hkey hexpiring
    · exact absurd hexpiring hready.not_expiring
  recorded j y hy hkey := by
    rw [Counts, hhistory]
    rcases hnew j y hy hkey with hy | ⟨hready, -⟩
    · exact hw.recorded j y hy hkey
    · exact .inl hready

theorem Metered.other (hw : w.Metered key limit window) (hx : w.calls[i]? = some x)
    (hother : x.key ≠ key) {prog : LimitCode (Except Err Bool)} (hformed : w'.WellFormed)
    (hcalls : w'.calls = w.calls.set i { x with prog := prog })
    (hkeys : w'.state.keys key = w.state.keys key) (hhistory : w'.history key = w.history key)
    (hnow : w'.state.now = w.state.now) : w'.Metered key limit window := by
  apply hw.frame hformed hkeys hhistory hnow.ge
  · intro j y hy hkey
    have hne : i ≠ j := by
      rintro rfl
      obtain rfl := Option.some.inj (hx.symm.trans hy)
      exact hother hkey
    rw [hcalls, List.getElem?_set_ne hne, hy]
  · intro j y hy hkey
    rw [hcalls] at hy
    by_cases hne : i = j
    · subst hne
      rw [List.getElem?_set_self (List.getElem?_eq_some_iff.mp hx).1] at hy
      obtain rfl := Option.some.inj hy
      exact absurd hkey hother
    · rw [List.getElem?_set_ne hne] at hy
      exact .inl hy

theorem Metered.live (hw : w.Metered key limit window) {c : Counter}
    (hc : w.state.counter key = some c) :
    ∃ before last, w.history key = before ++ [last] ∧ c = last.counter (RateLimit.ttl window) ∧
      ∀ t, last.expire = some t → w.state.now < t + RateLimit.ttl window := by
  obtain ⟨hkeys, hlive⟩ := counter_eq_some hc
  rw [hw.counter, Option.map_eq_some_iff] at hkeys
  obtain ⟨last, hlast, rfl⟩ := hkeys
  obtain ⟨before, hhistory⟩ := List.getLast?_eq_some_iff.mp hlast
  refine ⟨before, last, hhistory, rfl, ?_⟩
  intro t ht
  simpa [Counter.expired, Lifetime.counter, ht] using hlive

theorem Metered.ended (hw : w.Metered key limit window) (hnone : w.state.counter key = none) :
    ∀ l ∈ w.history key, ∃ t, l.expire = some t ∧ t + RateLimit.ttl window ≤ w.state.now := by
  rcases List.eq_nil_or_concat (w.history key) with hnil | ⟨before, last, hhistory⟩
  · intro l hl
    simp [hnil] at hl
  · have hmem : last ∈ w.history key := by simp [hhistory]
    have hkeys : w.state.keys key = some (last.counter (RateLimit.ttl window)) := by
      rw [hw.counter, hhistory]
      simp
    have hlast : ∃ t, last.expire = some t ∧ t + RateLimit.ttl window ≤ w.state.now := by
      simp only [LimitState.counter, hkeys] at hnone
      split at hnone
      · next hexpired =>
          cases ht : last.expire with
          | none => simp [Counter.expired, Lifetime.counter, ht] at hexpired
          | some t => exact ⟨t, rfl, by simpa [Counter.expired, Lifetime.counter, ht] using hexpired⟩
      · simp at hnone
    intro l hl
    have hapart := hw.apart
    rw [hhistory, List.concat_eq_append] at hl hapart
    rcases List.mem_append.mp hl with hl | hl
    · obtain ⟨t, ht, hafter⟩ := (List.pairwise_append.mp hapart).2.2 l hl last (by simp)
      obtain ⟨first, hhead, -⟩ := (hw.sound last hmem).first
      have hfirst := hafter first (List.mem_of_head? hhead)
      have hpast := (hw.sound last hmem).past first (List.mem_of_head? hhead)
      exact ⟨t, ht, hfirst.trans hpast⟩
    · obtain rfl := List.mem_singleton.mp hl
      exact hlast

theorem Metered.outcome_set (hw : w.Metered key limit window) {x' : KeyCall} {l : Lifetime}
    (hl : l ∈ w.history key) {j : Nat} {h : Hit} (hj : l.hits[j]? = some h) (hne : h.call ≠ i) :
    ∃ y, (w.calls.set i x')[h.call]? = some y ∧ y.key = key ∧ l.Leaves limit j y := by
  obtain ⟨y, hy, hkey, hout⟩ := hw.outcome l hl j h hj
  exact ⟨y, by rw [List.getElem?_set_ne hne.symm, hy], hkey, hout⟩

theorem Metered.constant_set (hw : w.Metered key limit window) {x' : KeyCall}
    (hx : w.calls[i]? = some x) (hlimit : x'.limit = x.limit) (hwindow : x'.window = x.window)
    (hkey' : x'.key = x.key) (j : Nat) (y : KeyCall) (hy : (w.calls.set i x')[j]? = some y)
    (hkey : y.key = key) : y.limit = limit ∧ y.window = window := by
  by_cases hne : i = j
  · subst hne
    rw [List.getElem?_set_self (List.getElem?_eq_some_iff.mp hx).1] at hy
    obtain rfl := Option.some.inj hy
    rw [hlimit, hwindow]
    exact hw.constant i x hx (hkey'.symm.trans hkey)
  · rw [List.getElem?_set_ne hne] at hy
    exact hw.constant j y hy hkey

theorem Metered.recorded_set (hw : w.Metered key limit window) {x' : KeyCall} (hi : w'.Counts key i)
    (hcalls : w'.calls = w.calls.set i x') (hcounts : ∀ j, w.Counts key j → w'.Counts key j)
    (j : Nat) (y : KeyCall) (hy : w'.calls[j]? = some y) (hkey : y.key = key) :
    y.Ready ∨ w'.Counts key j := by
  by_cases hne : i = j
  · subst hne
    exact .inr hi
  · rw [hcalls, List.getElem?_set_ne hne] at hy
    exact (hw.recorded j y hy hkey).imp_right (hcounts j)

/-- A command of a call of the key moves the call on and puts another lifetime, in which the call
stands, into the last place. -/
theorem Metered.advance (hw : w.Metered x.key limit window) (hx : w.calls[i]? = some x)
    {prog : LimitCode (Except Err Bool)} {before : List Lifetime} {last : Lifetime}
    (hformed : w'.WellFormed) (hnow : w'.state.now = w.state.now)
    (hcalls : w'.calls = w.calls.set i { x with prog := prog })
    (hhistory : w'.history x.key = before ++ [last])
    (hbefore : ∀ l ∈ before, l ∈ w.history x.key)
    (hunhit : ∀ l ∈ before, ∀ h ∈ l.hits, h.call ≠ i)
    (hkept : ∀ l ∈ w.history x.key, l ∈ before ∨ ∀ h ∈ l.hits, h ∈ last.hits)
    (hhit : ∃ h ∈ last.hits, h.call = i)
    (hcounter : w'.state.keys x.key = some (last.counter (RateLimit.ttl window)))
    (hsound : last.Sound (RateLimit.ttl window) w.state.now)
    (hapart : (before ++ [last]).Pairwise (Lifetime.Before (RateLimit.ttl window)))
    (hdistinct : ((before ++ [last]).flatMap fun l => l.hits.map Hit.call).Nodup)
    (houtcome : ∀ (j : Nat) (h : Hit), last.hits[j]? = some h →
      ∃ y, w'.calls[h.call]? = some y ∧ y.key = x.key ∧ last.Leaves limit j y)
    (hpending : ∀ (j : Nat) (y : KeyCall), w'.calls[j]? = some y → y.key = x.key → y.Expiring →
      ∃ h, last.expire = none ∧ last.hits.head? = some h ∧ h.call = j) :
    w'.Metered x.key limit window where
  wellFormed := hformed
  constant := by
    rw [hcalls]
    exact hw.constant_set hx rfl rfl rfl
  counter := by rw [hhistory, hcounter, List.getLast?_concat, Option.map_some]
  sound l hl := by
    rw [hhistory] at hl
    rw [hnow]
    rcases List.mem_append.mp hl with hl | hl
    · exact hw.sound l (hbefore l hl)
    · obtain rfl := List.mem_singleton.mp hl
      exact hsound
  apart := by rwa [hhistory]
  distinct := by rwa [hhistory]
  outcome l hl j h hj := by
    rw [hhistory] at hl
    rcases List.mem_append.mp hl with hl | hl
    · rw [hcalls]
      exact hw.outcome_set (hbefore l hl) hj (hunhit l hl h (List.mem_of_getElem? hj))
    · obtain rfl := List.mem_singleton.mp hl
      exact houtcome j h hj
  recorded := by
    apply hw.recorded_set ((counts_concat hhistory).mpr (.inr hhit)) hcalls
    rintro j ⟨l, hl, h, hh, hcall⟩
    rcases hkept l hl with hold | hlast
    · exact (counts_concat hhistory).mpr (.inl ⟨l, hold, h, hh, hcall⟩)
    · exact (counts_concat hhistory).mpr (.inr ⟨h, hlast h hh, hcall⟩)
  pending j y hy hkey hexpiring := by
    obtain ⟨h, hnone, hhead, hcall⟩ := hpending j y hy hkey hexpiring
    exact ⟨last, h, by rw [hhistory, List.getLast?_concat], hnone, hhead, hcall⟩

theorem Metered.create (hw : w.Metered x.key limit window) (hx : w.calls[i]? = some x)
    (hready : x.Ready) (hnone : w.state.counter x.key = none) :
    (w.afterIncr i x).Metered x.key limit window := by
  have hended := hw.ended hnone
  have hhistory : (w.afterIncr i x).history x.key =
      w.history x.key ++ [⟨[⟨i, w.state.now⟩], none⟩] := by
    simp [afterIncr, recordIncr, hnone]
  have hcount : (w.state.incr x.key).1 = 1 := by simp [LimitState.incr, hnone]
  have hself : (w.afterIncr i x).calls[i]? =
      some { x with prog := KeyCall.expiring x.key x.limit x.window } := by
    simp only [afterIncr, hcount]
    exact List.getElem?_set_self (List.getElem?_eq_some_iff.mp hx).1
  have hunhit : ∀ l ∈ w.history x.key, ∀ h ∈ l.hits, h.call ≠ i :=
    fun l hl h hh => hw.unhit hx hready hl hh
  refine hw.advance hx (wellFormed_set hw.wellFormed (.inr (counted_cases _ _ _ _))) ?_ rfl hhistory
    (fun _ hl => hl) hunhit (fun _ hl => .inl hl) ⟨⟨i, w.state.now⟩, by simp, rfl⟩ ?_
    (Lifetime.sound_new i) ?_ ?_ ?_ ?_
  · simp [afterIncr, LimitState.incr, hnone, LimitState.setCounter]
  · simp [afterIncr, keys_incr, hcount, hnone, Lifetime.counter]
  · rw [List.pairwise_append]
    refine ⟨hw.apart, by simp, ?_⟩
    intro l hl l' hl'
    obtain rfl := List.mem_singleton.mp hl'
    obtain ⟨t, ht, hle⟩ := hended l hl
    exact ⟨t, ht, by simpa using hle⟩
  · rw [List.flatMap_append, List.nodup_append]
    refine ⟨hw.distinct, by simp, ?_⟩
    intro a ha b hb
    rintro rfl
    simp only [List.flatMap_singleton, List.map_singleton, List.mem_singleton] at hb
    obtain ⟨l, hl, hi⟩ := List.mem_flatMap.mp ha
    obtain ⟨h, hh, heq⟩ := List.mem_map.mp hi
    exact hunhit l hl h hh (heq.trans hb)
  · intro j h hj
    cases j with
    | zero =>
        obtain rfl : ⟨i, w.state.now⟩ = h := by simpa using hj
        exact ⟨_, hself, rfl, .inr ⟨rfl, rfl, rfl⟩⟩
    | succ j => simp at hj
  · intro j y hy hkey hexpiring
    by_cases hne : i = j
    · exact ⟨⟨i, w.state.now⟩, rfl, rfl, hne⟩
    · -- any other call before its `EXPIRE` would belong to a lifetime that has not ended
      have hy' : w.calls[j]? = some y := by
        simpa [afterIncr, List.getElem?_set_ne hne] using hy
      obtain ⟨l, h, hlast, hexpire, -⟩ := hw.pending j y hy' hkey hexpiring
      obtain ⟨t, ht, -⟩ := hended l (List.mem_of_getLast? hlast)
      simp [hexpire] at ht

theorem kept_last {ls before : List Lifetime} {old last : Lifetime} (hold : ls = before ++ [old])
    (hhits : ∀ h ∈ old.hits, h ∈ last.hits) :
    ∀ l ∈ ls, l ∈ before ∨ ∀ h ∈ l.hits, h ∈ last.hits := by
  intro l hl
  rw [hold] at hl
  rcases List.mem_append.mp hl with hl | hl
  · exact .inl hl
  · obtain rfl := List.mem_singleton.mp hl
    exact .inr hhits

theorem apart_last {before : List Lifetime} {last last' : Lifetime}
    {ttl : Nat} (h : (before ++ [last]).Pairwise (Lifetime.Before ttl))
    (hhits : ∀ h ∈ last'.hits, ∃ h' ∈ last.hits, h'.time ≤ h.time) :
    (before ++ [last']).Pairwise (Lifetime.Before ttl) := by
  rw [List.pairwise_append] at h ⊢
  refine ⟨h.1, by simp, ?_⟩
  intro l hl l' hl'
  obtain rfl := List.mem_singleton.mp hl'
  obtain ⟨t, ht, hafter⟩ := h.2.2 l hl last (by simp)
  refine ⟨t, ht, ?_⟩
  intro x hx
  obtain ⟨y, hy, hle⟩ := hhits x hx
  exact (hafter y hy).trans hle

theorem Metered.add (hw : w.Metered x.key limit window) (hx : w.calls[i]? = some x)
    (hready : x.Ready) {c : Counter} (hc : w.state.counter x.key = some c) :
    (w.afterIncr i x).Metered x.key limit window := by
  obtain ⟨before, last, hold, rfl, hlive⟩ := hw.live hc
  have hmem : last ∈ w.history x.key := by simp [hold]
  have hsound := hw.sound last hmem
  obtain ⟨first, hhead, hfirst, -⟩ := hsound.first
  have hfirstMem : first ∈ last.hits := List.mem_of_head? hhead
  have hpos : 0 < last.hits.length := List.length_pos_of_mem hfirstMem
  have hhistory : (w.afterIncr i x).history x.key =
      before ++ [⟨last.hits ++ [⟨i, w.state.now⟩], last.expire⟩] := by
    simp [afterIncr, recordIncr, hc, hold, List.modifyLast_concat]
  have hcount : (w.state.incr x.key).1 = last.hits.length + 1 := by
    simp [LimitState.incr, hc, Lifetime.counter]
  have hprog : KeyCall.counted x.key x.limit x.window (w.state.incr x.key).1 =
      .ret (.ok (decide (last.hits.length < limit))) := by
    have hlimit := (hw.constant i x hx rfl).1
    have hiff : ((last.hits.length + 1 : Nat) : Int) ≤ limit ↔ last.hits.length < limit := by omega
    rw [KeyCall.counted, hcount, if_neg (by omega), hlimit]
    simp only [hiff]
  have hself : (w.afterIncr i x).calls[i]? =
      some { x with prog := .ret (.ok (decide (last.hits.length < limit))) } := by
    rw [← hprog]
    exact List.getElem?_set_self (List.getElem?_eq_some_iff.mp hx).1
  have hbefore : ∀ l ∈ before, l ∈ w.history x.key := fun l hl => by simp [hold, hl]
  have hunhit : ∀ l ∈ w.history x.key, ∀ h ∈ l.hits, h.call ≠ i :=
    fun l hl h hh => hw.unhit hx hready hl hh
  refine hw.advance hx (wellFormed_set hw.wellFormed (.inr (counted_cases _ _ _ _))) ?_ rfl hhistory
    hbefore (fun l hl => hunhit l (hbefore l hl))
    (kept_last hold fun h hh => List.mem_append_left _ hh) ⟨⟨i, w.state.now⟩, by simp, rfl⟩ ?_
    (hsound.incr i hlive) ?_ ?_ ?_ ?_
  · simp [afterIncr, LimitState.incr, hc, LimitState.setCounter]
  · simp [afterIncr, keys_incr, hcount, hc, Lifetime.counter]
  · apply apart_last (hold ▸ hw.apart)
    intro h hh
    rcases List.mem_append.mp hh with hh | hh
    · exact ⟨h, hh, le_refl _⟩
    · obtain rfl := List.mem_singleton.mp hh
      exact ⟨first, hfirstMem, hsound.past first hfirstMem⟩
  · have hdistinct := hw.distinct
    rw [hold] at hdistinct
    simp only [List.flatMap_append, List.flatMap_singleton, List.map_append, List.map_singleton]
    rw [← List.append_assoc, List.nodup_append]
    refine ⟨by simpa using hdistinct, by simp, ?_⟩
    intro a ha b hb hab
    have hai : a = i := hab.trans (List.mem_singleton.mp hb)
    have hmem' : a ∈ (w.history x.key).flatMap fun l => l.hits.map Hit.call := by
      rw [hold]
      simpa using ha
    obtain ⟨l, hl, hi⟩ := List.mem_flatMap.mp hmem'
    obtain ⟨h, hh, heq⟩ := List.mem_map.mp hi
    exact hunhit l hl h hh (heq.trans hai)
  · intro j h hj
    rcases lt_trichotomy j last.hits.length with hlt | rfl | hgt
    · rw [List.getElem?_append_left hlt] at hj
      exact hw.outcome_set hmem hj (hunhit last hmem h (List.mem_of_getElem? hj))
    · obtain rfl : ⟨i, w.state.now⟩ = h := by simpa using hj
      exact ⟨_, hself, rfl, .inl ⟨rfl, fun hzero => absurd hzero hpos.ne'⟩⟩
    · rw [List.getElem?_eq_none (by simp; omega)] at hj
      simp at hj
  · intro j y hy hkey hexpiring
    by_cases hne : i = j
    · subst hne
      obtain rfl := Option.some.inj (hself.symm.trans hy)
      simp [KeyCall.Expiring, KeyCall.expiring] at hexpiring
    · have hy' : w.calls[j]? = some y := by
        simpa [afterIncr, List.getElem?_set_ne hne] using hy
      obtain ⟨l, h, hlast, hexpire, hh, hcall⟩ := hw.pending j y hy' hkey hexpiring
      obtain rfl : last = l := by simpa [hold] using hlast
      exact ⟨h, hexpire, by simp [hh], hcall⟩

theorem Metered.expire (hw : w.Metered x.key limit window) (hx : w.calls[i]? = some x)
    (hexpiring : x.Expiring) : (w.afterExpire i x).Metered x.key limit window := by
  obtain ⟨last, first, hlast, hnone, hhead, hfirst⟩ := hw.pending i x hx rfl hexpiring
  obtain ⟨before, hold⟩ := List.getLast?_eq_some_iff.mp hlast
  have hmem : last ∈ w.history x.key := List.mem_of_getLast? hlast
  have hsound := hw.sound last hmem
  obtain ⟨hlimit, hwindow⟩ := hw.constant i x hx rfl
  have hkeys : w.state.keys x.key = some (last.counter (RateLimit.ttl window)) := by
    rw [hw.counter, hlast]
    rfl
  have hc : w.state.counter x.key = some (last.counter (RateLimit.ttl window)) :=
    counter_of_lasting hkeys (by simp [Lifetime.counter, hnone])
  have hhistory : (w.afterExpire i x).history x.key =
      before ++ [⟨last.hits, some w.state.now⟩] := by
    simp [afterExpire, recordExpire, hc, hold, List.modifyLast_concat]
  have hself : (w.afterExpire i x).calls[i]? =
      some { x with prog := .ret (.ok (decide (0 < limit))) } := by
    have hiff : (1 : Int) ≤ limit ↔ 0 < limit := by omega
    have hset := List.getElem?_set_self (List.getElem?_eq_some_iff.mp hx).1
      (a := { x with prog := .ret (.ok (decide (1 ≤ x.limit))) })
    rw [afterExpire, hset, hlimit]
    simp only [hiff]
  have hbefore : ∀ l ∈ before, l ∈ w.history x.key := fun l hl => by simp [hold, hl]
  have hdistinct := hw.distinct
  rw [hold] at hdistinct
  simp only [List.flatMap_append, List.flatMap_singleton] at hdistinct
  have hnodup := List.nodup_append.mp hdistinct
  -- the call stands at the head of the last lifetime and nowhere else
  have hnot : ∀ l ∈ before, ∀ h ∈ l.hits, h.call ≠ i := by
    intro l hl h hh heq
    have hin : i ∈ before.flatMap fun l => l.hits.map Hit.call :=
      List.mem_flatMap.mpr ⟨l, hl, List.mem_map.mpr ⟨h, hh, heq⟩⟩
    have hin' : i ∈ last.hits.map Hit.call :=
      List.mem_map.mpr ⟨first, List.mem_of_head? hhead, hfirst⟩
    exact hnodup.2.2 i hin i hin' rfl
  have hapart := hw.apart
  rw [hold] at hapart
  refine hw.advance hx (wellFormed_set hw.wellFormed (.inr (.inr ⟨_, rfl⟩))) ?_ rfl hhistory hbefore
    hnot (kept_last hold fun h hh => hh) ⟨first, List.mem_of_head? hhead, hfirst⟩ ?_ hsound.expire
    (apart_last hapart fun h hh => ⟨h, hh, le_refl _⟩) ?_ ?_ ?_
  · simp [afterExpire, LimitState.expire, hc, LimitState.setCounter]
  · simp [afterExpire, LimitState.expire, hc, LimitState.setCounter, Lifetime.counter, hwindow]
  · simpa only [List.flatMap_append, List.flatMap_singleton] using hdistinct
  · intro j h hj
    have hzero : last.hits[0]? = some first := by rw [← List.head?_eq_getElem?, hhead]
    cases j with
    | zero =>
        obtain rfl := Option.some.inj (hzero.symm.trans hj)
        rw [hfirst]
        exact ⟨_, hself, rfl, .inl ⟨rfl, by simp⟩⟩
    | succ j =>
        have hne : h.call ≠ i := by
          intro heq
          have hcalls : (last.hits.map Hit.call)[j + 1]? = some i := by simp [hj, heq]
          have hcalls' : (last.hits.map Hit.call)[0]? = some i := by simp [hzero, hfirst]
          have hindex := (List.getElem?_inj
            (List.getElem?_eq_some_iff.mp hcalls).1 hnodup.2.1).mp (hcalls.trans hcalls'.symm)
          omega
        obtain ⟨y, hy, hkey, ⟨hret, -⟩ | ⟨hj0, -⟩⟩ := hw.outcome_set hmem hj hne
        · exact ⟨y, hy, hkey, .inl ⟨hret, by simp⟩⟩
        · omega
  · intro j y hy hkey hexp
    by_cases hne : i = j
    · subst hne
      obtain rfl := Option.some.inj (hself.symm.trans hy)
      simp [KeyCall.Expiring, KeyCall.expiring] at hexp
    · have hy' : w.calls[j]? = some y := by
        simpa [afterExpire, List.getElem?_set_ne hne] using hy
      obtain ⟨l, h, hlast', -, hhead', hcall⟩ := hw.pending j y hy' hkey hexp
      obtain rfl := Option.some.inj (hlast.symm.trans hlast')
      obtain rfl := Option.some.inj (hhead.symm.trans hhead')
      exact absurd (hfirst.symm.trans hcall) hne

theorem incr_other (hne : x.key ≠ key) :
    (w.afterIncr i x).state.keys key = w.state.keys key ∧
      (w.afterIncr i x).history key = w.history key ∧
      (w.afterIncr i x).state.now = w.state.now := by
  refine ⟨?_, Function.update_of_ne hne.symm _ _, ?_⟩
  · simp only [afterIncr, keys_incr]
    exact Function.update_of_ne hne.symm _ _
  · simp only [afterIncr, LimitState.incr]
    split <;> rfl

theorem expire_other (hne : x.key ≠ key) :
    (w.afterExpire i x).state.keys key = w.state.keys key ∧
      (w.afterExpire i x).history key = w.history key ∧
      (w.afterExpire i x).state.now = w.state.now := by
  refine ⟨?_, Function.update_of_ne hne.symm _ _, ?_⟩
  · simp only [afterExpire, LimitState.expire]
    split
    · exact Function.update_of_ne hne.symm _ _
    · rfl
  · simp only [afterExpire, LimitState.expire]
    split <;> rfl

theorem Metered.step (hw : w.Metered key limit window) (hconstant : Constant key limit window w e)
    (hstep : w.step e = some w') : w'.Metered key limit window := by
  have hmoves := step_moves hw.wellFormed hstep
  have hformed := hmoves.wellFormed hw.wellFormed
  cases hmoves with
  | wait d =>
      exact hw.frame hformed rfl rfl (Nat.le_add_right _ _) (fun _ _ hy _ => hy)
        (fun _ _ hy _ => .inl hy)
  | start key' limit' window' =>
      apply hw.frame hformed rfl rfl (le_refl _)
      · intro j y hy _
        exact (List.getElem?_append_left (List.getElem?_eq_some_iff.mp hy).1).trans hy
      · intro j y hy hkey
        rw [List.getElem?_append] at hy
        split at hy
        · exact .inl hy
        · have hlast : y = ⟨key', limit', window', RateLimit.allowKey key' limit' window'⟩ := by
            have hmem := List.mem_of_getElem? hy
            simpa using hmem
          subst hlast
          exact .inr ⟨rfl, hconstant hkey⟩
  | @incr i x hx hready =>
      by_cases hkey : x.key = key
      · subst hkey
        cases hc : w.state.counter x.key with
        | none => exact hw.create hx hready hc
        | some c => exact hw.add hx hready hc
      · obtain ⟨hkeys, hhistory, hnow⟩ := incr_other hkey
        exact hw.other hx hkey hformed rfl hkeys hhistory hnow
  | @incrFails i x hx _ =>
      have hkey : x.key ≠ key := fun hkey => by simpa using hconstant x hx hkey
      exact hw.other hx hkey hformed rfl rfl rfl rfl
  | @expire i x hx hexpiring =>
      by_cases hkey : x.key = key
      · subst hkey
        exact hw.expire hx hexpiring
      · obtain ⟨hkeys, hhistory, hnow⟩ := expire_other hkey
        exact hw.other hx hkey hformed rfl hkeys hhistory hnow
  | @expireFails i x hx _ =>
      have hkey : x.key ≠ key := fun hkey => by simpa using hconstant x hx hkey
      exact hw.other hx hkey hformed rfl rfl rfl rfl
  | @stop i x hx => exact hw.other hx (hconstant x hx) hformed rfl rfl rfl rfl

theorem Fresh.metered (h : w.Fresh) : w.Metered key limit window where
  wellFormed := h.covered.wellFormed
  constant i x hx := by simp [h.calls] at hx
  counter := by simp [h.keys, h.history]
  sound := by simp [h.history]
  apart := by simp [h.history]
  distinct := by simp [h.history]
  outcome := by simp [h.history]
  recorded i x hx := by simp [h.calls] at hx
  pending i x hx := by simp [h.calls] at hx

/-- How many calls of a key return true among those with a command at such a time. -/
def allowedAt (w : LimiterWorld) (key : String) (commands : Lifetime → List Hit) (p : Nat → Bool) :
    Nat :=
  ((w.history key).flatMap commands).countP fun h => p h.time && w.answer h.call == some true

theorem answer_ret {b : Bool} (hx : w.calls[i]? = some x) (h : x.prog = .ret (.ok b)) :
    w.answer i = some b := by
  simp [answer, hx, h]

theorem answer_expiring (hx : w.calls[i]? = some x) (h : x.Expiring) : w.answer i = none := by
  have hprog : x.prog = KeyCall.expiring x.key x.limit x.window := h
  simp [answer, hx, hprog, KeyCall.expiring]

theorem Metered.answers (hw : w.Metered key limit window) {l : Lifetime} (hl : l ∈ w.history key)
    {j : Nat} {h : Hit} (hj : l.hits[j]? = some h) :
    w.answer h.call = some (decide (j < limit)) ∨
      j = 0 ∧ l.expire = none ∧ w.answer h.call = none := by
  obtain ⟨x, hx, -, ⟨hret, -⟩ | ⟨hzero, hnone, hexpiring⟩⟩ := hw.outcome l hl j h hj
  · exact .inl (answer_ret hx hret)
  · exact .inr ⟨hzero, hnone, answer_expiring hx hexpiring⟩

theorem Metered.lt_of_allowed (hw : w.Metered key limit window) {l : Lifetime}
    (hl : l ∈ w.history key) {j : Nat} {h : Hit} (hj : l.hits[j]? = some h)
    (htrue : w.answer h.call = some true) : j < limit := by
  rcases hw.answers hl hj with hanswer | ⟨-, -, hanswer⟩
  · simpa [hanswer] using htrue
  · simp [hanswer] at htrue

theorem Metered.hits_le (hw : w.Metered key limit window) {l : Lifetime} (hl : l ∈ w.history key)
    (p : Nat → Bool) :
    l.hits.countP (fun h => p h.time && w.answer h.call == some true) ≤ limit := by
  apply countP_le_of_index
  intro j h hj hp
  simp only [Bool.and_eq_true, beq_iff_eq] at hp
  exact hw.lt_of_allowed hl hj hp.2

theorem Metered.returns_le (hw : w.Metered key limit window) {l : Lifetime}
    (hl : l ∈ w.history key) (p : Nat → Bool) :
    l.returns.countP (fun h => p h.time && w.answer h.call == some true) ≤ limit := by
  apply countP_le_of_index
  intro j r hr hp
  simp only [Bool.and_eq_true, beq_iff_eq] at hp
  unfold Lifetime.returns at hr
  split at hr
  · simp at hr
  · next first rest hhits =>
      split at hr
      · next t ht =>
          -- the places in `returns` are those in `hits`
          cases j with
          | zero =>
              obtain rfl : ⟨first.call, t⟩ = r := by simpa using hr
              exact hw.lt_of_allowed hl (h := first) (by simp [hhits]) hp.2
          | succ j => exact hw.lt_of_allowed hl (h := r) (by simpa [hhits] using hr) hp.2
      · -- the first call has not returned, so every place is one lower
        have hlt : j + 1 < limit :=
          hw.lt_of_allowed hl (h := r) (by simpa [hhits] using hr) hp.2
        omega

theorem Metered.allowedAt_le (hw : w.Metered key limit window) (httl : 0 < RateLimit.ttl window)
    {commands : Lifetime → List Hit} {p : Nat → Bool}
    (hcommands : ∀ l, ∀ r ∈ commands l, r ∈ l.hits ∨ l.expire = some r.time)
    (hlimit : ∀ l ∈ w.history key,
      (commands l).countP (fun h => p h.time && w.answer h.call == some true) ≤ limit)
    (hp : ∀ t t', p t = true → p t' = true → t' ≤ t + RateLimit.ttl window) :
    w.allowedAt key commands p ≤ 2 * limit := by
  have hsum := countP_flatMap_le hlimit
  have htwo : ((w.history key).filter fun l =>
      (commands l).any fun h => p h.time && w.answer h.call == some true).length ≤ 2 := by
    apply length_filter_le_two hw.apart
    intro l₁ hl₁ l₂ hl₂ l₃ hl₃ h₁₂ h₂₃ hany hany'
    obtain ⟨r, hr, hpr⟩ := List.any_eq_true.mp hany
    obtain ⟨r', hr', hpr'⟩ := List.any_eq_true.mp hany'
    simp only [Bool.and_eq_true] at hpr hpr'
    have hfar := (hw.sound l₁ hl₁).far (hw.sound l₂ hl₂) (hw.sound l₃ hl₃) httl h₁₂ h₂₃
      (hcommands l₁ r hr) (hcommands l₃ r' hr')
    have hnear := hp r.time r'.time hpr.1 hpr'.1
    omega
  calc w.allowedAt key commands p ≤ limit * _ := hsum
    _ ≤ limit * 2 := Nat.mul_le_mul_left limit htwo
    _ = 2 * limit := Nat.mul_comm _ _

theorem Metered.interval (hw : w.Metered key limit window) (httl : 0 < RateLimit.ttl window)
    (p : Nat → Bool)
    (hp : ∀ t t', p t = true → p t' = true → t' ≤ t + RateLimit.ttl window) :
    w.allowedAt key Lifetime.hits p ≤ 2 * limit ∧ w.allowedAt key Lifetime.returns p ≤ 2 * limit := by
  constructor
  · exact hw.allowedAt_le httl (fun _ _ hr => .inl hr) (fun l hl => hw.hits_le hl p) hp
  · exact hw.allowedAt_le httl (fun _ _ hr => Lifetime.mem_returns hr)
      (fun l hl => hw.returns_le hl p) hp

theorem Metered.answers_eq (hw : w.Metered key limit window) (hidle : w.Idle) {l : Lifetime}
    (hl : l ∈ w.history key) :
    l.hits.map (fun h => w.answer h.call) =
      List.replicate (min l.hits.length limit) (some true) ++
        List.replicate (l.hits.length - min l.hits.length limit) (some false) := by
  apply List.ext_getElem?
  intro j
  cases hj : l.hits[j]? with
  | none =>
      have hle : l.hits.length ≤ j := List.getElem?_eq_none_iff.mp hj
      rw [List.getElem?_map, hj, List.getElem?_eq_none (by simp; omega)]
      rfl
  | some h =>
      have hlt : j < l.hits.length := (List.getElem?_eq_some_iff.mp hj).1
      have hanswer : w.answer h.call = some (decide (j < limit)) := by
        obtain ⟨x, hx, -, ⟨hret, -⟩ | ⟨-, -, hexpiring⟩⟩ := hw.outcome l hl j h hj
        · exact answer_ret hx hret
        · have hsome := hidle x (List.mem_of_getElem? hx)
          rw [hexpiring.not_returned] at hsome
          simp at hsome
      rw [List.getElem?_map, hj, Option.map_some, hanswer, List.getElem?_append]
      simp only [List.length_replicate, List.getElem?_replicate]
      by_cases hlimit : j < limit
      · rw [if_pos (by omega), if_pos (by omega), decide_eq_true hlimit]
      · rw [if_neg (by omega), if_pos (by omega), decide_eq_false hlimit]

theorem Metered.returned (hw : w.Metered key limit window) (hx : w.calls[i]? = some x)
    (hkey : x.key = key) (hresult : x.result.isSome = true) :
    ∃ l ∈ w.history key, (∃ h ∈ l.hits, h.call = i) ∧ ∃ r ∈ l.returns, r.call = i := by
  rcases hw.recorded i x hx hkey with hready | ⟨l, hl, h, hh, rfl⟩
  · rw [KeyCall.result, hready, KeyCall.allowKey_eq] at hresult
    simp at hresult
  · refine ⟨l, hl, ⟨h, hh, rfl⟩, ?_⟩
    obtain ⟨j, hj⟩ := List.mem_iff_getElem?.mp hh
    obtain ⟨y, hy, -, ⟨-, hset⟩ | ⟨-, -, hexpiring⟩⟩ := hw.outcome l hl j h hj
    · cases hhits : l.hits with
      | nil => simp [hhits] at hh
      | cons first rest =>
          rw [hhits] at hj
          cases j with
          | zero =>
              obtain rfl : first = h := by simpa using hj
              obtain ⟨t, ht⟩ := Option.ne_none_iff_exists'.mp (hset rfl)
              exact ⟨⟨first.call, t⟩, by simp [Lifetime.returns, hhits, ht], rfl⟩
          | succ j =>
              have hrest : h ∈ rest := List.mem_of_getElem? (by simpa using hj)
              refine ⟨h, ?_, rfl⟩
              cases ht : l.expire with
              | none => simpa [Lifetime.returns, hhits, ht] using hrest
              | some t => simp [Lifetime.returns, hhits, ht, hrest]
    · obtain rfl := Option.some.inj (hx.symm.trans hy)
      rw [hexpiring.not_returned] at hresult
      simp at hresult

end

/-- At most twice the limit return true at such times, counted by the `INCR` of a call or by its
last command. -/
def AtMostTwice (w : LimiterWorld) (key : String) (limit : Nat) (p : Nat → Bool) : Prop :=
  w.allowedAt key Lifetime.hits p ≤ 2 * limit ∧ w.allowedAt key Lifetime.returns p ≤ 2 * limit

/-- Every call that has returned belongs to a lifetime of its key. The limiter admits exactly its
limit in each lifetime, and at most twice the limit in any interval no longer than the time to live,
which is the window where that is in whole seconds. -/
theorem fixed_window_limit {key : String} {limit window : Nat} {w₀ : LimiterWorld}
    {es : List LimiterEvent} (hfresh : w₀.Fresh)
    (hrun : w₀.RunOf (Constant key limit window) es w) :
    (∀ (i : Nat) (x : KeyCall), w.calls[i]? = some x → x.key = key → x.result.isSome = true →
      ∃ l ∈ w.history key, (∃ h ∈ l.hits, h.call = i) ∧ ∃ r ∈ l.returns, r.call = i) ∧
    ((w.history key).flatMap fun l => l.hits.map Hit.call).Nodup ∧
    (∀ l ∈ w.history key, ∀ (j : Nat) (h : Hit), l.hits[j]? = some h →
      w.answer h.call = some (decide (j < limit)) ∨
        j = 0 ∧ l.expire = none ∧ w.answer h.call = none) ∧
    (w.Idle → ∀ l ∈ w.history key, l.hits.map (fun h => w.answer h.call) =
      List.replicate (min l.hits.length limit) (some true) ++
        List.replicate (l.hits.length - min l.hits.length limit) (some false)) ∧
    (RateLimit.second ∣ window → ∀ a,
      w.AtMostTwice key limit (fun t => decide (a ≤ t ∧ t < a + window)) ∧
      (0 < window → w.AtMostTwice key limit fun t => decide (a ≤ t ∧ t ≤ a + window))) ∧
    (∀ a length, length ≤ RateLimit.ttl window →
      w.AtMostTwice key limit (fun t => decide (a ≤ t ∧ t < a + length)) ∧
      (0 < window → w.AtMostTwice key limit fun t => decide (a ≤ t ∧ t ≤ a + length))) := by
  have hw : w.Metered key limit window :=
    hrun.invariant (fun _ _ _ h hconstant hstep => h.step hconstant hstep) hfresh.metered
  have hclosed : ∀ a length, length ≤ RateLimit.ttl window → 0 < window →
      w.AtMostTwice key limit fun t => decide (a ≤ t ∧ t ≤ a + length) := by
    intro a length hlength hwindow
    apply hw.interval (RateLimit.ttl_pos hwindow)
    intro t t' ht ht'
    simp only [decide_eq_true_eq] at ht ht'
    omega
  have hopen : ∀ a length, length ≤ RateLimit.ttl window →
      w.AtMostTwice key limit fun t => decide (a ≤ t ∧ t < a + length) := by
    intro a length hlength
    by_cases httl : 0 < RateLimit.ttl window
    · apply hw.interval httl
      intro t t' ht ht'
      simp only [decide_eq_true_eq] at ht ht'
      omega
    · have hnever : ∀ t, decide (a ≤ t ∧ t < a + length) = false := by
        intro t
        simp only [decide_eq_false_iff_not]
        omega
      simp [AtMostTwice, allowedAt, hnever]
  refine ⟨fun i x hx hkey hresult => hw.returned hx hkey hresult, hw.distinct,
    fun l hl j h hj => hw.answers hl hj, fun hidle l hl => hw.answers_eq hidle hl, ?_, ?_⟩
  · intro hwhole a
    have hlength : window ≤ RateLimit.ttl window := (RateLimit.ttl_eq hwhole).ge
    exact ⟨hopen a window hlength, hclosed a window hlength⟩
  · intro a length hlength
    exact ⟨hopen a length hlength, hclosed a length hlength⟩

/-- Two calls in one lifetime, of which the limit lets one through. -/
theorem fixed_window_limit_two :
    ∃ w, unused.RunOf (Constant "k" 1 (5 * RateLimit.second))
        [.allowKey "k" 1 (5 * RateLimit.second), .allowKey "k" 1 (5 * RateLimit.second),
          .step 0 false, .step 1 false, .step 0 false] w ∧
      (w.history "k").map (fun l => l.hits.map fun h => w.answer h.call) =
        [[some true, some false]] ∧
      w.AtMostTwice "k" 1 (fun t => decide (0 ≤ t ∧ t < 0 + 5 * RateLimit.second)) := by
  have hreach : ∃ w, unused.RunOf (Constant "k" 1 (5 * RateLimit.second))
      [.allowKey "k" 1 (5 * RateLimit.second), .allowKey "k" 1 (5 * RateLimit.second),
        .step 0 false, .step 1 false, .step 0 false] w ∧
      (w.history "k").map (fun l => l.hits.map fun h => w.answer h.call) =
        [[some true, some false]] :=
    ⟨_, .cons (fun _ => ⟨rfl, rfl⟩) rfl (.cons (fun _ => ⟨rfl, rfl⟩) rfl
      (.cons (fun _ _ _ => rfl) rfl (.cons (fun _ _ _ => rfl) rfl
        (.cons (fun _ _ _ => rfl) rfl (.nil _))))), by decide⟩
  obtain ⟨w, hrun, hanswers⟩ := hreach
  obtain ⟨-, -, -, -, hwhole, -⟩ := fixed_window_limit unused_fresh hrun
  exact ⟨w, hrun, hanswers, (hwhole (Nat.dvd_mul_left _ 5) 0).1⟩

end LimiterWorld

end NotificationPlatform
