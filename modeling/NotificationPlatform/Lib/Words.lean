import Mathlib.Data.List.Chain
import Mathlib.Data.List.Infix

/-!
# Words

The words of a text are its maximal runs of letters, whatever counts as a letter. The normal form
of a text is its words with one separator between each two.
-/

namespace Lib.Words

variable {α β : Type} {isLetter : α → Bool} {sep : α}

def words (isLetter : α → Bool) (text : List α) : List (List α) :=
  (text.splitOnP fun c => !isLetter c).filter fun piece => !piece.isEmpty

structure IsWord (isLetter : α → Bool) (w : List α) : Prop where
  ne_nil : w ≠ []
  letters : ∀ c ∈ w, isLetter c = true

@[simp] theorem words_nil : words isLetter [] = [] := rfl

theorem words_cons_sep {c : α} (hc : isLetter c = false) (text : List α) :
    words isLetter (c :: text) = words isLetter text := by
  simp [words, List.splitOnP_cons_eq_if_modifyHead, hc]

theorem IsWord.words_eq {w : List α} (hw : IsWord isLetter w) : words isLetter w = [w] := by
  have hpieces : (w.splitOnP fun c => !isLetter c) = [w] :=
    List.splitOnP_eq_singleton fun c hc => by simp [hw.letters c hc]
  simp [words, hpieces, hw.ne_nil]

theorem IsWord.words_append {w : List α} (hw : IsWord isLetter w) {c : α}
    (hc : isLetter c = false) (text : List α) :
    words isLetter (w ++ c :: text) = w :: words isLetter text := by
  have hpieces : ((w ++ c :: text).splitOnP fun c => !isLetter c) =
      w :: text.splitOnP fun c => !isLetter c :=
    List.splitOnP_append_cons_of_forall_mem (fun d hd => by simp [hw.letters d hd]) c
      (by simp [hc]) text
  simp [words, hpieces, hw.ne_nil]

theorem isWord_singleton {c : α} (hc : isLetter c = true) : IsWord isLetter [c] :=
  ⟨by simp, by simp [hc]⟩

theorem IsWord.concat {w : List α} (hw : IsWord isLetter w) {c : α} (hc : isLetter c = true) :
    IsWord isLetter (w ++ [c]) := by
  refine ⟨by simp, ?_⟩
  intro d hd
  rcases List.mem_append.mp hd with hmem | hlast
  · exact hw.letters d hmem
  · rw [List.mem_singleton.mp hlast]
    exact hc

theorem words_cases (isLetter : α → Bool) {motive : List α → Prop} (nil : motive [])
    (skip : ∀ c text, isLetter c = false → motive text → motive (c :: text))
    (last : ∀ w, IsWord isLetter w → motive w)
    (word : ∀ w c text, IsWord isLetter w → isLetter c = false → motive text →
      motive (w ++ c :: text)) (text : List α) : motive text := by
  -- the word under way is kept in front of what is still to be read
  have hboth : ∀ rest, motive rest ∧ ∀ w, IsWord isLetter w → motive (w ++ rest) := by
    intro rest
    induction rest with
    | nil => exact ⟨nil, fun w hw => by simpa using last w hw⟩
    | cons c rest ih =>
        cases hc : isLetter c with
        | false => exact ⟨skip c rest hc ih.1, fun w hw => word w c rest hw hc ih.1⟩
        | true =>
            refine ⟨ih.2 [c] (isWord_singleton hc), ?_⟩
            intro w hw
            simpa using ih.2 (w ++ [c]) (hw.concat hc)
  exact (hboth text).1

theorem isWord_of_mem {text w : List α} (h : w ∈ words isLetter text) : IsWord isLetter w := by
  induction text using words_cases isLetter with
  | nil => simp at h
  | skip c text hc ih => exact ih (by rwa [words_cons_sep hc] at h)
  | last v hv =>
      rw [hv.words_eq, List.mem_singleton] at h
      rwa [h]
  | word v c text hv hc ih =>
      rw [hv.words_append hc, List.mem_cons] at h
      rcases h with rfl | hrest
      · exact hv
      · exact ih hrest

theorem words_map {isLetter : β → Bool} (f : α → β) (text : List α) :
    words isLetter (text.map f) = (words (fun c => isLetter (f c)) text).map (List.map f) := by
  have hmap : ∀ w, IsWord (fun c => isLetter (f c)) w → IsWord isLetter (w.map f) := by
    intro w hw
    refine ⟨by simp [hw.ne_nil], ?_⟩
    intro d hd
    obtain ⟨c, hc, rfl⟩ := List.mem_map.mp hd
    exact hw.letters c hc
  induction text using words_cases fun c => isLetter (f c) with
  | nil => rfl
  | skip c text hc ih =>
      have hskip := @words_cons_sep _ (fun c => isLetter (f c)) c hc text
      rw [List.map_cons, words_cons_sep hc, ih, hskip]
  | last w hw => rw [(hmap w hw).words_eq, hw.words_eq, List.map_singleton]
  | word w c text hw hc ih =>
      rw [List.map_append, List.map_cons, (hmap w hw).words_append hc, ih, hw.words_append hc,
        List.map_cons]

/-! ## The normal form -/

/-- One separator between each two words, none at the ends. -/
structure Normal (isLetter : α → Bool) (sep : α) (text : List α) : Prop where
  ne_nil : text ≠ []
  chars : ∀ c ∈ text, isLetter c = true ∨ c = sep
  first : text.head? ≠ some sep
  last : text.getLast? ≠ some sep
  single : ¬[sep, sep] <:+: text

theorem IsWord.ne_sep {w : List α} (hw : IsWord isLetter w) (hsep : isLetter sep = false) {c : α}
    (hc : c ∈ w) : c ≠ sep := by
  rintro rfl
  simp [hw.letters c hc] at hsep

/-- The parts of a normal form, by which it is put together word by word. -/
private structure Joined (isLetter : α → Bool) (sep : α) (text : List α) : Prop where
  ne_nil : text ≠ []
  chars : ∀ c ∈ text, isLetter c = true ∨ c = sep
  first : ∀ c ∈ text.head?, c ≠ sep
  last : ∀ c ∈ text.getLast?, c ≠ sep
  chain : text.IsChain fun a b => ¬(a = sep ∧ b = sep)

private theorem IsWord.joined {w : List α} (hw : IsWord isLetter w) (hsep : isLetter sep = false) :
    Joined isLetter sep w := by
  constructor
  · exact hw.ne_nil
  · exact fun c hc => .inl (hw.letters c hc)
  · exact fun c hc => hw.ne_sep hsep (List.mem_of_mem_head? hc)
  · exact fun c hc => hw.ne_sep hsep (List.mem_of_getLast? hc)
  · apply List.Pairwise.isChain
    rw [List.pairwise_iff_forall_sublist]
    intro a b hab hsame
    exact hw.ne_sep hsep (hab.subset List.mem_cons_self) hsame.1

private theorem Joined.cons {w text : List α} (h : Joined isLetter sep text)
    (hw : IsWord isLetter w) (hsep : isLetter sep = false) :
    Joined isLetter sep (w ++ sep :: text) := by
  have hword := hw.joined hsep
  constructor
  · simp
  · intro c hc
    rcases List.mem_append.mp hc with hmem | hrest
    · exact hword.chars c hmem
    · rcases List.mem_cons.mp hrest with rfl | hmem
      · exact .inr rfl
      · exact h.chars c hmem
  · intro c hc
    rw [List.head?_append_of_ne_nil _ hw.ne_nil] at hc
    exact hword.first c hc
  · intro c hc
    rw [List.getLast?_append_cons, List.getLast?_cons_of_ne_nil h.ne_nil] at hc
    exact h.last c hc
  · rw [List.isChain_append]
    refine ⟨hword.chain, List.isChain_cons.mpr ⟨?_, h.chain⟩, ?_⟩
    · exact fun c hc hsame => h.first c hc hsame.2
    · exact fun c hc d _ hsame => hword.last c hc hsame.1

private theorem joined_intercalate (hsep : isLetter sep = false) {w : List α}
    {ws : List (List α)} (h : ∀ v ∈ w :: ws, IsWord isLetter v) :
    Joined isLetter sep ([sep].intercalate (w :: ws)) := by
  induction ws generalizing w with
  | nil =>
      rw [List.intercalate_singleton]
      exact (h w (by simp)).joined hsep
  | cons v ws ih =>
      have hrest := ih fun u hu => h u (List.mem_cons_of_mem _ hu)
      rw [List.intercalate_cons_cons, List.append_assoc]
      exact hrest.cons (h w (by simp)) hsep

theorem normal_intercalate (hsep : isLetter sep = false) {ws : List (List α)} (hne : ws ≠ [])
    (h : ∀ w ∈ ws, IsWord isLetter w) : Normal isLetter sep ([sep].intercalate ws) := by
  obtain ⟨w, ws, rfl⟩ := List.exists_cons_of_ne_nil hne
  have hjoined := joined_intercalate hsep h
  constructor
  · exact hjoined.ne_nil
  · exact hjoined.chars
  · exact fun hfirst => hjoined.first sep hfirst rfl
  · exact fun hlast => hjoined.last sep hlast rfl
  · intro hinfix
    have htwo := hjoined.chain.infix hinfix
    simp at htwo

theorem words_intercalate (hsep : isLetter sep = false) {ws : List (List α)}
    (h : ∀ w ∈ ws, IsWord isLetter w) : words isLetter ([sep].intercalate ws) = ws := by
  induction ws with
  | nil => rfl
  | cons w ws ih =>
      have hw := h w (by simp)
      have hws := ih fun v hv => h v (List.mem_cons_of_mem _ hv)
      cases ws with
      | nil => rw [List.intercalate_singleton, hw.words_eq]
      | cons v ws =>
          rw [List.intercalate_cons_cons, List.append_assoc, List.singleton_append,
            hw.words_append hsep, hws]

end Lib.Words
