import Mathlib.Data.List.DropRight
import NotificationPlatform.Lib.Words
import NotificationPlatform.QueueNames

/-!
# The normal form of a slug

The part of a queue name that stands for the slug is the words of the slug in lower case with one
dash between each two. Slugs with the same words get the same name.
-/

namespace NotificationPlatform

open Lib.Words

private theorem dash_not_slugChar : isSlugChar '-' = false := by decide

private theorem dropWhile_replaceRuns (cs : List Char) :
    (replaceRuns true cs).dropWhile (· == '-') = replaceRuns true cs := by
  rw [dropWhile_dash_eq_self_iff]
  induction cs with
  | nil => simp [replaceRuns]
  | cons c cs ih =>
      by_cases hc : isSlugChar c = true
      · simpa [replaceRuns, hc] using isSlugChar_ne_dash hc
      · simpa [replaceRuns, hc] using ih

private theorem dropWhile_replaceRuns_false (cs : List Char) :
    (replaceRuns false cs).dropWhile (· == '-') = replaceRuns true cs := by
  cases cs with
  | nil => rfl
  | cons c cs =>
      by_cases hc : isSlugChar c = true
      · have hopen := dropWhile_replaceRuns (c :: cs)
        simpa [replaceRuns, hc] using hopen
      · simpa [replaceRuns, hc] using dropWhile_replaceRuns cs

private theorem rdropWhile_word {w : List Char} (hw : IsWord isSlugChar w) :
    w.rdropWhile (· == '-') = w := by
  rw [List.rdropWhile_eq_self_iff]
  intro hne
  simpa using isSlugChar_ne_dash (hw.letters _ (List.getLast_mem hne))

private theorem rdropWhile_append {w rest : List Char} (hw : IsWord isSlugChar w) :
    (w ++ '-' :: rest).rdropWhile (· == '-') =
      if rest.rdropWhile (· == '-') = [] then w else w ++ '-' :: rest.rdropWhile (· == '-') := by
  have hword := rdropWhile_word hw
  unfold List.rdropWhile at hword ⊢
  rw [List.reverse_append, List.reverse_cons, List.append_assoc, List.dropWhile_append]
  cases hrest : rest.reverse.dropWhile (· == '-') with
  | nil => simpa using hword
  | cons c left => simp

private theorem rdropWhile_replaceRuns (cs : List Char) :
    (replaceRuns true cs).rdropWhile (· == '-') = ['-'].intercalate (words isSlugChar cs) ∧
      ∀ w, IsWord isSlugChar w → (w ++ replaceRuns false cs).rdropWhile (· == '-') =
        ['-'].intercalate (words isSlugChar (w ++ cs)) := by
  induction cs with
  | nil =>
      refine ⟨rfl, ?_⟩
      intro w hw
      rw [replaceRuns, List.append_nil, rdropWhile_word hw, hw.words_eq, List.intercalate_singleton]
  | cons c cs ih =>
      obtain ⟨hrun, hword⟩ := ih
      by_cases hc : isSlugChar c = true
      · refine ⟨?_, ?_⟩
        · simpa [replaceRuns, hc] using hword [c] (isWord_singleton hc)
        · intro w hw
          simpa [replaceRuns, hc] using hword (w ++ [c]) (hw.concat hc)
      · have hsep : isSlugChar c = false := by simpa using hc
        refine ⟨?_, ?_⟩
        · rw [replaceRuns, if_neg hc, if_pos rfl, hrun, words_cons_sep hsep]
        · intro w hw
          rw [replaceRuns, if_neg hc, if_neg Bool.false_ne_true, rdropWhile_append hw, hrun,
            hw.words_append hsep]
          cases hws : words isSlugChar cs with
          | nil => rw [List.intercalate_nil, if_pos rfl, List.intercalate_singleton]
          | cons v vs =>
              have hmem : ∀ u ∈ v :: vs, IsWord isSlugChar u := fun u hu =>
                isWord_of_mem (hws ▸ hu)
              have hne := (normal_intercalate dash_not_slugChar (by simp) hmem).ne_nil
              rw [if_neg hne, List.intercalate_cons_cons, List.append_assoc, List.singleton_append]

theorem trimDashes_replaceRuns (cs : List Char) :
    trimDashes (replaceRuns false cs) = ['-'].intercalate (words isSlugChar cs) := by
  have htrim : trimDashes (replaceRuns false cs) =
      ((replaceRuns false cs).dropWhile (· == '-')).rdropWhile (· == '-') := rfl
  rw [htrim, dropWhile_replaceRuns_false]
  exact (rdropWhile_replaceRuns cs).1

def slugWords (cfg : Config) (slug : String) : List (List Char) :=
  let ws := words isSlugChar (slug.toList.map cfg.toLower)
  if ws = [] then ["tenant".toList] else ws

theorem slugWords_ne_nil (cfg : Config) (slug : String) : slugWords cfg slug ≠ [] := by
  unfold slugWords
  dsimp only
  split
  · simp
  · next hws => exact hws

theorem isWord_of_mem_slugWords {cfg : Config} {slug : String} {w : List Char}
    (h : w ∈ slugWords cfg slug) : IsWord isSlugChar w := by
  unfold slugWords at h
  dsimp only at h
  split at h
  · rw [List.mem_singleton.mp h]
    exact ⟨by decide, List.all_eq_true.mp (by decide)⟩
  · exact isWord_of_mem h

theorem slugPart_eq_intercalate (cfg : Config) (slug : String) :
    slugPart cfg slug = ['-'].intercalate (slugWords cfg slug) := by
  unfold slugPart slugWords
  rw [trimDashes_replaceRuns]
  dsimp only
  cases hws : words isSlugChar (slug.toList.map cfg.toLower) with
  | nil => rfl
  | cons w ws =>
      have hmem : ∀ u ∈ w :: ws, IsWord isSlugChar u := fun u hu => isWord_of_mem (hws ▸ hu)
      have hne := (normal_intercalate dash_not_slugChar (by simp) hmem).ne_nil
      rw [if_neg hne, if_neg (by simp)]

theorem slugPart_normal (cfg : Config) (slug : String) :
    Normal isSlugChar '-' (slugPart cfg slug) := by
  rw [slugPart_eq_intercalate]
  exact normal_intercalate dash_not_slugChar (slugWords_ne_nil cfg slug)
    fun w => isWord_of_mem_slugWords

theorem toLower_of_normal {f : Char → Char} (hf : LowersAscii f) {cs : List Char}
    (h : Normal isSlugChar '-' cs) : cs.map f = cs := by
  have hkept : ∀ c : Char, isSlugChar c = true → c.toNat < 128 ∧ c.toLower = c := by
    intro c hc
    simp only [isSlugChar, Bool.or_eq_true, Bool.and_eq_true, decide_eq_true_eq, Char.le_def,
      UInt32.le_iff_toNat_le] at hc
    refine ⟨?_, ?_⟩
    · simp at hc
      omega
    · unfold Char.toLower
      rw [dif_neg]
      intro hupper
      simp only [ge_iff_le, UInt32.le_iff_toNat_le] at hupper
      simp at hc hupper
      omega
  have hsame : ∀ c ∈ cs, f c = id c := by
    intro c hc
    rcases h.chars c hc with hslug | rfl
    · rw [hf c (hkept c hslug).1, (hkept c hslug).2, id]
    · rw [hf '-' (by decide)]
      rfl
  rw [List.map_congr_left hsame, List.map_id]

theorem slugPart_slugPart {cfg : Config} (hlower : LowersAscii cfg.toLower) (slug : String) :
    slugPart cfg (String.ofList (slugPart cfg slug)) = slugPart cfg slug := by
  have hkept := toLower_of_normal hlower (slugPart_normal cfg slug)
  have hwords : words isSlugChar (slugPart cfg slug) = slugWords cfg slug := by
    rw [slugPart_eq_intercalate]
    exact words_intercalate dash_not_slugChar fun w => isWord_of_mem_slugWords
  have hagain : slugWords cfg (String.ofList (slugPart cfg slug)) = slugWords cfg slug := by
    conv_lhs => unfold slugWords
    rw [String.toList_ofList, hkept, hwords]
    exact if_neg (slugWords_ne_nil cfg slug)
  rw [slugPart_eq_intercalate, hagain, ← slugPart_eq_intercalate]

/-- The alphanumeric words of an ASCII slug, in lower case. -/
def lowerWords (slug : String) : List (List Char) :=
  (words Char.isAlphanum slug.toList).map (List.map Char.toLower)

theorem words_lower {f : Char → Char} (hf : LowersAscii f) {slug : String}
    (hascii : ∀ c ∈ slug.toList, c.toNat < 128) :
    words isSlugChar (slug.toList.map f) = lowerWords slug := by
  rw [map_toLower_of_ascii hf hascii, words_map, lowerWords]
  simp only [isSlugChar_toLower]

/-- The name of a queue has a normal form of the slug, which is its own normal form, and slugs
with the same words up to the case of letters have the same name. -/
theorem nameForTenant_normal (cfg : Config) (hlower : LowersAscii cfg.toLower) :
    (∀ slug channel : String,
      nameForTenant cfg slug channel =
        "tenant." ++ String.ofList (slugPart cfg slug) ++ "." ++
          String.ofList (channel.toList.map cfg.toLower) ∧
      Normal isSlugChar '-' (slugPart cfg slug) ∧
      slugPart cfg (String.ofList (slugPart cfg slug)) = slugPart cfg slug) ∧
    ∀ slug slug' channel : String, (∀ c ∈ slug.toList, c.toNat < 128) →
      (∀ c ∈ slug'.toList, c.toNat < 128) → lowerWords slug = lowerWords slug' →
      nameForTenant cfg slug channel = nameForTenant cfg slug' channel := by
  constructor
  · intro slug channel
    exact ⟨nameForTenant_eq cfg slug channel, slugPart_normal cfg slug,
      slugPart_slugPart hlower slug⟩
  · intro slug slug' channel hascii hascii' hwords
    have hslug : slugWords cfg slug = slugWords cfg slug' := by
      unfold slugWords
      rw [words_lower hlower hascii, words_lower hlower hascii', hwords]
    rw [nameForTenant_eq, nameForTenant_eq, slugPart_eq_intercalate, slugPart_eq_intercalate, hslug]

theorem ascii_of_all {s : String} (h : s.toList.all (fun c => decide (c.toNat < 128)) = true) :
    ∀ c ∈ s.toList, c.toNat < 128 :=
  fun c hc => of_decide_eq_true (List.all_eq_true.mp h c hc)

theorem nameForTenant_normal_ascii :
    nameForTenant (sampleConfig 3) "Acme  Corp!" "email" =
      nameForTenant (sampleConfig 3) "--acme_CORP" "email" :=
  (nameForTenant_normal (sampleConfig 3) fun _ _ => rfl).2 _ _ _ (ascii_of_all (by decide))
    (ascii_of_all (by decide)) (by decide +kernel)

end NotificationPlatform
