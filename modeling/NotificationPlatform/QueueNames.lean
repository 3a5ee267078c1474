import Mathlib.Data.List.TakeWhile
import NotificationPlatform.World

/-!
# Names of queue controls

A control's name is computed twice: in Go when a control is first needed, and in SQL when the list
of controls is read. Both write a dash for each run of other characters; only the first trims the
dashes at the ends, supplies a name when nothing is left and lower-cases the channel.
-/

namespace NotificationPlatform

/-- `'tenant.' || regexp_replace(lower(slug), '[^a-z0-9]+', '-', 'g') || '.' || channel`, the name
that the backfill of `ListQueueControls` and the migration give; `lower` is the database's. -/
def backfillName (lower : Char → Char) (slug channel : String) : String :=
  "tenant." ++ String.ofList (replaceRuns false (slug.toList.map lower)) ++ "." ++ channel

/-- A lower-casing does to ASCII characters what everyone expects of it. -/
def LowersAscii (lower : Char → Char) : Prop :=
  ∀ c : Char, c.toNat < 128 → lower c = c.toLower

/-- The slug is not empty and has a letter or a digit at both ends. -/
def AlnumEnds (slug : String) : Prop :=
  (∃ c ∈ slug.toList.head?, c.isAlphanum = true) ∧
    ∃ c ∈ slug.toList.getLast?, c.isAlphanum = true

theorem isSlugChar_toLower (c : Char) : isSlugChar c.toLower = c.isAlphanum := by
  by_cases hupper : c.val ≥ 'A'.val ∧ c.val ≤ 'Z'.val
  · have hval : c.toLower.val = c.val + ('a'.val - 'A'.val) := by
      unfold Char.toLower
      rw [dif_pos hupper]
    obtain ⟨hlo, hhi⟩ := hupper
    unfold isSlugChar Char.isAlphanum Char.isAlpha Char.isUpper Char.isLower Char.isDigit
    simp only [Char.le_def, hval, UInt32.le_iff_toNat_le, UInt32.toNat_add, ge_iff_le]
      at hlo hhi ⊢
    simp at hlo hhi ⊢
    have hmod : (c.toNat + 32) % 4294967296 = c.toNat + 32 := by omega
    simp [hmod, hlo, hhi]
  · have hsame : c.toLower = c := by
      unfold Char.toLower
      rw [dif_neg hupper]
    have hnot : c.isUpper = false := by
      unfold Char.isUpper
      simpa using hupper
    rw [hsame]
    unfold isSlugChar Char.isAlphanum Char.isAlpha Char.isLower Char.isDigit
    simp [hnot, Char.le_def]

theorem isSlugChar_ne_dash {c : Char} (h : isSlugChar c = true) : c ≠ '-' := by
  intro hdash
  subst hdash
  revert h
  decide

theorem head?_replaceRuns (cs : List Char) :
    (replaceRuns false cs).head? = cs.head?.map fun c => if isSlugChar c then c else '-' := by
  cases cs with
  | nil => rfl
  | cons c cs => by_cases hc : isSlugChar c = true <;> simp [replaceRuns, hc]

theorem getLast?_replaceRuns_concat (cs : List Char) (c : Char) (inRun : Bool) :
    ((if inRun then ['-'] else []) ++ replaceRuns inRun (cs ++ [c])).getLast? =
      some (if isSlugChar c then c else '-') := by
  induction cs generalizing inRun with
  | nil => cases inRun <;> by_cases hc : isSlugChar c = true <;> simp [replaceRuns, hc]
  | cons d cs ih =>
      have hopen := ih true
      have hclosed := ih false
      by_cases hd : isSlugChar d = true
      · have hne : replaceRuns false (cs ++ [c]) ≠ [] := by
          intro hnil
          simp [hnil] at hclosed
        cases inRun <;> simp_all [replaceRuns, List.getLast?_cons]
      · cases inRun <;> simp_all [replaceRuns]

theorem getLast?_replaceRuns (cs : List Char) :
    (replaceRuns false cs).getLast? = cs.getLast?.map fun c => if isSlugChar c then c else '-' := by
  rcases List.eq_nil_or_concat cs with rfl | ⟨init, c, rfl⟩
  · rfl
  · have hlast := getLast?_replaceRuns_concat init c false
    simpa using hlast

theorem dropWhile_dash_eq_self_iff {cs : List Char} :
    cs.dropWhile (· == '-') = cs ↔ cs.head? ≠ some '-' := by
  rw [List.dropWhile_eq_self_iff]
  cases cs with
  | nil => simp
  | cons c cs => simp

theorem trimDashes_eq_self_iff {cs : List Char} :
    trimDashes cs = cs ↔ cs.head? ≠ some '-' ∧ cs.getLast? ≠ some '-' := by
  rw [← dropWhile_dash_eq_self_iff, ← List.head?_reverse, ← dropWhile_dash_eq_self_iff]
  unfold trimDashes
  constructor
  · intro htrim
    have hlen := congrArg List.length htrim
    have hfirst := (List.dropWhile_suffix (l := cs) (· == '-')).length_le
    have hsecond :=
      (List.dropWhile_suffix (l := (cs.dropWhile (· == '-')).reverse) (· == '-')).length_le
    simp only [List.length_reverse] at hlen hsecond
    have hhead : cs.dropWhile (· == '-') = cs :=
      (List.dropWhile_suffix _).eq_of_length (by omega)
    rw [hhead] at htrim
    exact ⟨hhead, List.reverse_eq_iff.mp htrim⟩
  · rintro ⟨hhead, hlast⟩
    rw [hhead, hlast, List.reverse_reverse]

/-- What is left of the slug once its dashes are trimmed is the whole of it exactly when it begins
and ends with a letter or a digit. -/
theorem trimDashes_replaceRuns_eq_self_iff {cs : List Char} (hne : cs ≠ []) :
    trimDashes (replaceRuns false cs) = replaceRuns false cs ↔
      (∃ c ∈ cs.head?, isSlugChar c = true) ∧ ∃ c ∈ cs.getLast?, isSlugChar c = true := by
  have hend : ∀ c : Char, (if isSlugChar c = true then c else '-') ≠ '-' ↔ isSlugChar c = true := by
    intro c
    by_cases hc : isSlugChar c = true
    · simp [hc, isSlugChar_ne_dash hc]
    · simp [hc]
  rw [trimDashes_eq_self_iff, head?_replaceRuns, getLast?_replaceRuns]
  cases hhead : cs.head? with
  | none => exact absurd (List.head?_eq_none_iff.mp hhead) hne
  | some first =>
      cases hlast : cs.getLast? with
      | none => exact absurd (List.getLast?_eq_none_iff.mp hlast) hne
      | some last => simpa using and_congr (hend first) (hend last)

/-- The part of `NameForTenant` that stands for the slug. -/
def slugPart (cfg : Config) (slug : String) : List Char :=
  let trimmed := trimDashes (replaceRuns false (slug.toList.map cfg.toLower))
  if trimmed = [] then "tenant".toList else trimmed

theorem slugPart_eq_iff (cfg : Config) (slug : String) :
    slugPart cfg slug = replaceRuns false (slug.toList.map cfg.toLower) ↔
      (∃ c ∈ (slug.toList.map cfg.toLower).head?, isSlugChar c = true) ∧
        ∃ c ∈ (slug.toList.map cfg.toLower).getLast?, isSlugChar c = true := by
  unfold slugPart
  generalize slug.toList.map cfg.toLower = cs
  by_cases hnil : cs = []
  · subst hnil
    simp [trimDashes, replaceRuns]
  · rw [← trimDashes_replaceRuns_eq_self_iff hnil]
    dsimp only
    split
    · next htrim =>
        have hruns : replaceRuns false cs ≠ [] := by
          intro hruns
          have hhead := head?_replaceRuns cs
          rw [hruns] at hhead
          exact hnil (by simpa using hhead.symm)
        constructor
        · intro hdefault
          rw [← hdefault] at htrim
          exact absurd htrim (by decide)
        · intro hself
          exact absurd (hself.symm.trans htrim) hruns
    · rfl

def queueName (slug channel : List Char) : String :=
  "tenant." ++ String.ofList slug ++ "." ++ String.ofList channel

theorem nameForTenant_eq (cfg : Config) (slug channel : String) :
    nameForTenant cfg slug channel =
      queueName (slugPart cfg slug) (channel.toList.map cfg.toLower) := by
  by_cases htrim : trimDashes (replaceRuns false (slug.toList.map cfg.toLower)) = []
  · simp only [nameForTenant, queueName, slugPart, if_pos htrim, String.ofList_toList]
  · simp only [nameForTenant, queueName, slugPart, if_neg htrim]

theorem backfillName_eq (lower : Char → Char) (slug channel : String) :
    backfillName lower slug channel =
      queueName (replaceRuns false (slug.toList.map lower)) channel.toList := by
  rw [backfillName, queueName, String.ofList_toList]

theorem mem_replaceRuns {c : Char} {cs : List Char} {inRun : Bool}
    (h : c ∈ replaceRuns inRun cs) : isSlugChar c = true ∨ c = '-' := by
  induction cs generalizing inRun with
  | nil => simp [replaceRuns] at h
  | cons d cs ih =>
      unfold replaceRuns at h
      split at h
      · next hd =>
          rcases List.mem_cons.mp h with rfl | hrest
          · exact .inl hd
          · exact ih hrest
      · split at h
        · exact ih h
        · rcases List.mem_cons.mp h with rfl | hrest
          · exact .inr rfl
          · exact ih hrest

theorem dot_not_mem_replaceRuns (cs : List Char) (inRun : Bool) : '.' ∉ replaceRuns inRun cs := by
  intro hdot
  have hcases := mem_replaceRuns hdot
  revert hcases
  decide

theorem mem_of_mem_trimDashes {c : Char} {cs : List Char} (h : c ∈ trimDashes cs) : c ∈ cs := by
  rw [trimDashes, List.mem_reverse] at h
  have hfirst := (List.dropWhile_suffix _).subset h
  exact (List.dropWhile_suffix _).subset (List.mem_reverse.mp hfirst)

theorem dot_not_mem_slugPart (cfg : Config) (slug : String) : '.' ∉ slugPart cfg slug := by
  unfold slugPart
  dsimp only
  split
  · decide
  · intro hdot
    exact dot_not_mem_replaceRuns _ _ (mem_of_mem_trimDashes hdot)

theorem takeWhile_before_dot {slug : List Char} (h : '.' ∉ slug) (rest : List Char) :
    (slug ++ '.' :: rest).takeWhile (· != '.') = slug := by
  induction slug with
  | nil => simp
  | cons c slug ih =>
      have hc : c ≠ '.' := fun hdot => h (hdot ▸ List.mem_cons_self)
      have hslug : '.' ∉ slug := fun hdot => h (List.mem_cons_of_mem _ hdot)
      simp [hc, ih hslug]

theorem queueName_inj {slug slug' channel channel' : List Char} (h : '.' ∉ slug) (h' : '.' ∉ slug') :
    queueName slug channel = queueName slug' channel' ↔ slug = slug' ∧ channel = channel' := by
  constructor
  · intro hname
    have hlist := congrArg String.toList hname
    simp only [queueName, String.toList_append, String.toList_ofList, List.append_assoc] at hlist
    have htail : slug ++ '.' :: channel = slug' ++ '.' :: channel' := List.append_cancel_left hlist
    have hslug : slug = slug' := by
      rw [← takeWhile_before_dot h channel, htail, takeWhile_before_dot h']
    rw [hslug] at htail
    exact ⟨hslug, (List.cons.inj (List.append_cancel_left htail)).2⟩
  · rintro ⟨rfl, rfl⟩
    rfl

theorem map_toLower_of_ascii {f : Char → Char} (hf : LowersAscii f) {cs : List Char}
    (hascii : ∀ c ∈ cs, c.toNat < 128) : cs.map f = cs.map Char.toLower :=
  List.map_congr_left fun c hc => hf c (hascii c hc)

/-- The two generators give one name exactly when the slug begins and ends with a letter or a digit
and the channel is in lower case already. -/
theorem queueNames_agree_iff (cfg : Config) (lower : Char → Char) (slug channel : String)
    (hgo : LowersAscii cfg.toLower) (hsql : LowersAscii lower)
    (hascii : ∀ c ∈ slug.toList, c.toNat < 128) :
    nameForTenant cfg slug channel = backfillName lower slug channel ↔
      AlnumEnds slug ∧ channel.toList.map cfg.toLower = channel.toList := by
  have hlower : slug.toList.map lower = slug.toList.map cfg.toLower := by
    rw [map_toLower_of_ascii hgo hascii, map_toLower_of_ascii hsql hascii]
  rw [nameForTenant_eq, backfillName_eq,
    queueName_inj (dot_not_mem_slugPart cfg slug) (dot_not_mem_replaceRuns _ _), hlower,
    slugPart_eq_iff, map_toLower_of_ascii hgo hascii]
  simp [AlnumEnds, isSlugChar_toLower]

theorem queueNames_agree_on_plain_slug :
    nameForTenant (sampleConfig 3) "acme" "email" = backfillName Char.toLower "acme" "email" :=
  (queueNames_agree_iff (sampleConfig 3) Char.toLower "acme" "email" (fun _ _ => rfl)
    (fun _ _ => rfl) (by simp)).mpr
    ⟨⟨⟨'a', by decide, by decide⟩, ⟨'e', by decide, by decide⟩⟩, by decide⟩

/-- A slug that ends in a dash keeps it in one of the two names. -/
theorem queueNames_differ : ¬∀ slug channel : String, (∀ c ∈ slug.toList, c.toNat < 128) →
    nameForTenant (sampleConfig 3) slug channel = backfillName Char.toLower slug channel := by
  intro h
  have hagree := h "acme-" "email" (by simp)
  revert hagree
  decide +kernel

end NotificationPlatform
