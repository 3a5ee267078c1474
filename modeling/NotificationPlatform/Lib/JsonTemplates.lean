import NotificationPlatform.Lib.JsonTokens

/-!
# Templates of JSON texts

A template is a JSON text whose string literals contain placeholders in double braces. Filled with
texts that need no escapes it is a JSON text again, with the same tokens but for the placeholders.
Texts that need escapes break out of their literals, and an empty text joins what stands around it.
-/

namespace Lib.JsonText

open Template

variable {ι : Type}

def braced (word : List Char) : List Char := '{' :: '{' :: (word ++ ['}', '}'])

def isPlain (c : Char) : Bool := c != '"' && c != '\\' && !decide (c < ' ')

def readPiece (name : ι → List Char) (holes : List ι) (cs : List Char) :
    Option (Piece ι × List Char) :=
  match holeAt name holes cs with
  | some i => some (.hole i, cs.drop (name i).length)
  | none => (readChar cs).map fun r => (.char r.1, r.2)

/-- The first half of a pair of surrogates stands before a placeholder without a text. -/
def Joins (name value : ι → List Char) (holes : List ι) (cs : List Char) : Prop :=
  ∃ tail rest n i, cs = '\\' :: 'u' :: tail ∧ readHex tail = some (n, rest) ∧
    isSurrogate n = true ∧ n < 0xDC00 ∧ holeAt name holes rest = some i ∧ value i = []

/-- The texts for the placeholders in `cs` need no escapes, and none is empty where that would join
a pair of surrogates. -/
structure Fits (name value : ι → List Char) (holes : List ι) (cs : List Char) : Prop where
  plain : ∀ i ∈ holes, name i <:+: cs → ∀ c ∈ value i, isPlain c = true
  apart : ∀ s, s <:+ cs → ¬Joins name value holes s

abbrev filled (name value : ι → List Char) (holes : List ι) (cs : List Char) : List Char :=
  fill value (pieces name holes cs)

section

variable {name value : ι → List Char} {holes : List ι} {cs rest : List Char} {c : Char}

theorem Fits.of_suffix (h : Fits name value holes cs) (hrest : rest <:+ cs) :
    Fits name value holes rest where
  plain i hi hname := h.plain i hi (hname.trans hrest.isInfix)
  apart s hs := h.apart s (hs.trans hrest)

private theorem readHex_eq_some {n : Nat} (h : readHex cs = some (n, rest)) :
    ∃ digits : List Char, cs = digits ++ rest ∧ digits.length = 4 ∧
      (∀ d ∈ digits, d ≠ '{') ∧ ∀ tail, readHex (digits ++ tail) = some (n, tail) := by
  unfold readHex at h
  split at h
  · next a b c d rest' =>
      obtain ⟨na, ha, h⟩ := Option.bind_eq_some_iff.mp h
      obtain ⟨nb, hb, h⟩ := Option.bind_eq_some_iff.mp h
      obtain ⟨nc, hc, h⟩ := Option.bind_eq_some_iff.mp h
      obtain ⟨nd, hd, h⟩ := Option.bind_eq_some_iff.mp h
      obtain ⟨rfl, rfl⟩ := Prod.mk.inj (Option.some.inj h)
      have hbrace : hexValue '{' = none := by decide
      refine ⟨[a, b, c, d], rfl, rfl, ?_, fun tail => by simp [readHex, ha, hb, hc, hd]⟩
      rintro x hx rfl
      simp only [List.mem_cons, List.not_mem_nil, or_false] at hx
      rcases hx with rfl | rfl | rfl | rfl <;> simp_all
  · simp at h

private theorem readUnit_split {r : Char × List Char} (h : readUnit cs = some r) :
    ∃ used, used ≠ [] ∧ cs = used ++ r.2 := by
  obtain ⟨⟨n, rest⟩, hhex, hchar⟩ := Option.bind_eq_some_iff.mp h
  obtain ⟨digits, rfl, hdigits, -, -⟩ := readHex_eq_some hhex
  have hne : digits ≠ [] := by
    rintro rfl
    simp at hdigits
  dsimp only at hchar
  split at hchar
  · split at hchar
    · next tail =>
        split at hchar
        · next low tail' hlow =>
            obtain ⟨digits', rfl, -, -, -⟩ := readHex_eq_some hlow
            split at hchar <;> obtain rfl := Option.some.inj hchar
            · exact ⟨digits ++ '\\' :: 'u' :: digits', by simp, by simp⟩
            · exact ⟨digits, hne, rfl⟩
        · obtain rfl := Option.some.inj hchar
          exact ⟨digits, hne, rfl⟩
    · obtain rfl := Option.some.inj hchar
      exact ⟨digits, hne, rfl⟩
  · obtain rfl := Option.some.inj hchar
    exact ⟨digits, hne, rfl⟩

theorem readChar_split {r : Char × List Char} (h : readChar cs = some r) :
    ∃ used, used ≠ [] ∧ cs = used ++ r.2 := by
  unfold readChar at h
  split at h
  · next e rest =>
      split at h
      · obtain ⟨used, -, hused⟩ := readUnit_split h
        exact ⟨'\\' :: e :: used, by simp, by rw [hused]; rfl⟩
      · split at h
        · obtain rfl := Option.some.inj h
          exact ⟨['\\', e], by simp, rfl⟩
        · obtain ⟨p, -, rfl⟩ := Option.map_eq_some_iff.mp h
          exact ⟨['\\', e], by simp, rfl⟩
  · simp at h
  · split at h
    · simp at h
    · obtain rfl := Option.some.inj h
      exact ⟨[_], by simp, rfl⟩
  · simp at h

theorem readChar_length {r : Char × List Char} (h : readChar cs = some r) :
    r.2.length < cs.length := by
  obtain ⟨used, hne, hcs⟩ := readChar_split h
  have hpos := List.length_pos_iff.mpr hne
  rw [hcs, List.length_append]
  omega

theorem readPiece_hole {i : ι} (h : holeAt name holes cs = some i) (hcs : cs = name i ++ rest) :
    readPiece name holes cs = some (.hole i, rest) := by
  simp only [readPiece, h]
  rw [hcs, List.drop_left]

theorem readPiece_char (h : holeAt name holes cs = none) :
    readPiece name holes cs = (readChar cs).map fun r => (.char r.1, r.2) := by
  simp only [readPiece, h]

theorem readPiece_length (hne : ∀ i, name i ≠ []) {r : Piece ι × List Char}
    (h : readPiece name holes cs = some r) : r.2.length < cs.length := by
  unfold readPiece at h
  split at h
  · next i hhole =>
      obtain ⟨rest, rfl⟩ := exists_rest_of_holeAt hhole
      obtain rfl := Option.some.inj h
      have hpos := List.length_pos_iff.mpr (hne i)
      simp only [List.drop_left, List.length_append]
      omega
  · obtain ⟨r', hread, rfl⟩ := Option.map_eq_some_iff.mp h
    exact readChar_length hread

theorem isPlain_spec (h : isPlain c = true) : c ≠ '"' ∧ c ≠ '\\' ∧ ¬c < ' ' := by
  simpa [isPlain, and_assoc] using h

theorem literal_append {out as : List Char} {value : List Char}
    (hplain : ∀ c ∈ value, isPlain c = true) (h : Literal readChar rest as out) :
    Literal readChar (value ++ rest) (value ++ as) out := by
  induction value with
  | nil => exact h
  | cons c value ih =>
      obtain ⟨hquote, hescape, hspace⟩ := isPlain_spec (hplain c (by simp))
      apply Literal.unit
      · simpa using hquote
      · exact readChar_self hescape hspace _
      · exact ih fun d hd => hplain d (List.mem_cons_of_mem _ hd)

theorem literal_of_append {out as : List Char} {value : List Char}
    (hplain : ∀ c ∈ value, isPlain c = true) (h : Literal readChar (value ++ rest) as out) :
    ∃ as', Literal readChar rest as' out := by
  induction value generalizing as with
  | nil => exact ⟨as, h⟩
  | cons c value ih =>
      obtain ⟨hquote, hescape, hspace⟩ := isPlain_spec (hplain c (by simp))
      cases h with
      | close rest => exact absurd rfl hquote
      | unit _ hunit hrest =>
          rw [List.cons_append, readChar_self hescape hspace] at hunit
          obtain ⟨rfl, rfl⟩ := Prod.mk.inj (Option.some.inj hunit)
          exact ih (fun d hd => hplain d (List.mem_cons_of_mem _ hd)) hrest

/-- The name of a placeholder: a word that is no JSON value, in double braces. -/
def IsName (cs : List Char) : Prop :=
  ∃ word, cs = braced word ∧ word ≠ [] ∧ (∀ c ∈ word, isAtomChar c = true) ∧ isAtom word = false

theorem isPlain_of_isAtomChar (h : isAtomChar c = true) : isPlain c = true := by
  obtain ⟨-, hquote, hescape, -⟩ := atomChar_spec (α := Char) h
  have hspace : ¬c < ' ' := by
    intro hlt
    have hval : c.toNat < 32 := hlt
    unfold isAtomChar Char.isAlphanum Char.isAlpha Char.isUpper Char.isLower Char.isDigit at h
    simp only [Bool.or_eq_true, Bool.and_eq_true, decide_eq_true_eq, beq_iff_eq, ge_iff_le,
      UInt32.le_iff_toNat_le] at h
    rcases h with (((((h | h) | h) | rfl) | rfl) | rfl)
    · simp at h
      omega
    · simp at h
      omega
    · simp at h
      omega
    · simp at hval
    · simp at hval
    · simp at hval
  simp [isPlain, hquote, hescape, hspace]

theorem isPlain_of_isName {cs : List Char} (h : IsName cs) : ∀ c ∈ cs, isPlain c = true := by
  obtain ⟨word, rfl, -, hatoms, -⟩ := h
  intro c hc
  simp only [braced, List.mem_cons, List.mem_append, List.not_mem_nil, or_false] at hc
  rcases hc with rfl | rfl | hc | rfl | rfl
  · decide
  · decide
  · exact isPlain_of_isAtomChar (hatoms c hc)
  · decide
  · decide

theorem holeAt_of_ne (hnames : ∀ i, IsName (name i)) (hc : c ≠ '{') :
    holeAt name holes (c :: cs) = none := by
  cases h : holeAt name holes (c :: cs) with
  | none => rfl
  | some i =>
      obtain ⟨rest, hrest⟩ := exists_rest_of_holeAt h
      obtain ⟨word, hword, -⟩ := hnames i
      rw [hword] at hrest
      exact absurd (List.cons.inj hrest).1 hc

theorem filled_cons_of_ne (hnames : ∀ i, IsName (name i)) (hc : c ≠ '{') :
    filled name value holes (c :: cs) = c :: filled name value holes cs := by
  rw [filled, pieces_char (holeAt_of_ne hnames hc)]
  rfl

theorem filled_append (hnames : ∀ i, IsName (name i)) {used : List Char}
    (hused : ∀ c ∈ used, c ≠ '{') :
    filled name value holes (used ++ cs) = used ++ filled name value holes cs := by
  induction used with
  | nil => rfl
  | cons c used ih =>
      rw [List.cons_append, filled_cons_of_ne hnames (hused c (by simp)),
        ih fun d hd => hused d (List.mem_cons_of_mem _ hd), List.cons_append]

theorem filled_of_holeAt (hnames : ∀ i, IsName (name i)) {i : ι}
    (h : holeAt name holes cs = some i) (hcs : cs = name i ++ rest) :
    filled name value holes cs = value i ++ filled name value holes rest := by
  obtain ⟨word, hword, -⟩ := hnames i
  rw [hcs] at h ⊢
  rw [filled, pieces_hole (by simp [hword, braced]) h]
  rfl

private theorem exists_rest_of_append {used pre tail : List Char} (hused : ∀ c ∈ used, c ≠ '{')
    (h : used ++ rest = pre ++ '{' :: tail) : ∃ pre', rest = pre' ++ '{' :: tail := by
  induction used generalizing pre with
  | nil => exact ⟨pre, h⟩
  | cons c used ih =>
      cases pre with
      | nil =>
          have hc := (List.cons.inj h).1
          exact absurd hc (hused c (by simp))
      | cons d pre =>
          have hrest := (List.cons.inj h).2
          exact ih (fun e he => hused e (List.mem_cons_of_mem _ he)) hrest

private theorem word_eq_of_prefix {word word' tail tail' : List Char}
    (hword : ∀ c ∈ word, isAtomChar c = true) (hword' : ∀ c ∈ word', isAtomChar c = true)
    (h : word ++ '}' :: tail = word' ++ '}' :: tail') : word = word' := by
  have htake := congrArg (List.takeWhile isAtomChar) h
  rw [List.takeWhile_append_of_pos hword, List.takeWhile_append_of_pos hword'] at htake
  simpa [isAtomChar] using htake

theorem hole_mem_pieces (hnames : ∀ i, IsName (name i)) (hinj : Function.Injective name) {i : ι}
    (hi : i ∈ holes) (h : name i <:+: cs) : .hole i ∈ pieces name holes cs := by
  induction hn : cs.length using Nat.strong_induction_on generalizing cs with
  | h n ih =>
      obtain ⟨pre, post, hcs⟩ := h
      obtain ⟨word, hword, -, hatoms, -⟩ := hnames i
      cases hhole : holeAt name holes cs with
      | none =>
          cases pre with
          | nil =>
              rw [holeAt, List.find?_eq_none] at hhole
              exact absurd (List.isPrefixOf_iff_prefix.mpr ⟨post, hcs⟩) (hhole i hi)
          | cons c pre =>
              rw [List.cons_append, List.cons_append] at hcs
              subst hcs
              rw [pieces_char hhole]
              exact List.mem_cons_of_mem _ (ih _ (by simp [← hn]) ⟨pre, post, rfl⟩ rfl)
      | some j =>
          obtain ⟨rest, hrest⟩ := exists_rest_of_holeAt hhole
          obtain ⟨word', hword', hne', hatoms', -⟩ := hnames j
          have hlt : rest.length < n := by
            rw [← hn, hrest, hword']
            simp only [braced, List.length_append, List.length_cons]
            omega
          have hpieces : pieces name holes cs = .hole j :: pieces name holes rest := by
            rw [hrest] at hhole ⊢
            exact pieces_hole (by simp [hword', braced]) hhole
          rw [hpieces]
          rw [← hcs, hword, hword', braced, braced] at hrest
          simp only [List.cons_append, List.append_assoc, List.nil_append] at hrest
          cases pre with
          | nil =>
              -- one of two names is no beginning of the other
              have hsame : name i = name j := by
                simp only [List.nil_append, List.cons.injEq, true_and] at hrest
                rw [hword, hword', word_eq_of_prefix hatoms hatoms' hrest]
              rw [hinj hsame]
              exact List.mem_cons_self
          | cons c pre =>
              have htail := (List.cons.inj hrest).2
              -- the two braces of a name do not begin inside another
              cases pre with
              | nil =>
                  obtain ⟨d, word', rfl⟩ := List.exists_cons_of_ne_nil hne'
                  obtain ⟨-, hd⟩ := List.cons.inj htail
                  have hatom := hatoms' d (by simp)
                  rw [← (List.cons.inj hd).1] at hatom
                  simp [isAtomChar] at hatom
              | cons d pre =>
                  obtain ⟨-, hlater⟩ := List.cons.inj htail
                  have hbrace : ∀ c ∈ word' ++ ['}', '}'], c ≠ '{' := by
                    rintro c hc rfl
                    rcases List.mem_append.mp hc with hc | hc
                    · have hatom := hatoms' _ hc
                      simp [isAtomChar] at hatom
                    · simp at hc
                  obtain ⟨pre', hpre'⟩ := exists_rest_of_append hbrace (by simpa using hlater.symm)
                  apply List.mem_cons_of_mem
                  exact ih _ hlt ⟨pre', post, by simp [hpre', hword, braced]⟩ rfl

theorem not_lexed_name {α : Type} {unit : List Char → Option (α × List Char)} {text : List Char}
    (hname : IsName text) {ts : List (Token (List α))} : ¬Lexed unit (text ++ rest) ts := by
  obtain ⟨word, rfl, hne, hatoms, hno⟩ := hname
  intro h
  -- two braces, and then a word that is no value
  have hword : ∃ ts, Lexed unit (word ++ '}' :: '}' :: rest) ts := by
    rw [braced, List.cons_append, List.cons_append, List.append_assoc] at h
    have hopen : ∀ {cs : List Char} {ts : List (Token (List α))}, Lexed unit ('{' :: cs) ts →
        ∃ ts', Lexed unit cs ts' := by
      intro cs ts h
      generalize hcs : '{' :: cs = text at h
      cases h with
      | nil => simp at hcs
      | space hc hrest =>
          obtain ⟨rfl, -⟩ := List.cons.inj hcs
          simp [isSpace] at hc
      | str hs hrest => simp at hcs
      | punct hc hrest =>
          obtain ⟨-, rfl⟩ := List.cons.inj hcs
          exact ⟨_, hrest⟩
      | @atom text rest ts htext hchars hend hrest =>
          obtain ⟨c, text, rfl⟩ := List.exists_cons_of_ne_nil (isAtom_ne_nil htext)
          obtain ⟨rfl, -⟩ := List.cons.inj hcs
          have hc := hchars '{' (by simp)
          simp [isAtomChar] at hc
    obtain ⟨ts₁, h₁⟩ := hopen h
    exact hopen h₁
  obtain ⟨ts', h'⟩ := hword
  obtain ⟨c, cs, hcs⟩ := List.exists_cons_of_ne_nil hne
  obtain ⟨hspace, hquote, -, hpunct⟩ := atomChar_spec (α := α) (hatoms c (by simp [hcs]))
  generalize htext : word ++ '}' :: '}' :: rest = text at h'
  cases h' with
  | nil => simp at htext
  | space hc _ =>
      rw [hcs, List.cons_append] at htext
      obtain ⟨rfl, -⟩ := List.cons.inj htext
      simp [hspace] at hc
  | str _ _ =>
      rw [hcs, List.cons_append] at htext
      exact hquote (List.cons.inj htext).1
  | punct hc _ =>
      rw [hcs, List.cons_append] at htext
      obtain ⟨rfl, -⟩ := List.cons.inj htext
      simp [hpunct] at hc
  | @atom text' rest' ts hatom hchars hend _ =>
      have hsame : word = text' := by
        have htake := congrArg (List.takeWhile isAtomChar) htext
        rw [List.takeWhile_append_of_pos hatoms,
          List.takeWhile_append_of_pos hchars] at htake
        have hnone : rest'.takeWhile isAtomChar = [] := by
          cases rest' with
          | nil => rfl
          | cons d rest' => simp [hend d rfl]
        rw [hnone] at htake
        simpa [isAtomChar] using htake
      rw [hsame, hatom] at hno
      simp at hno

private theorem readUnit_lone {n : Nat} (hhex : readHex cs = some (n, rest))
    (hsurrogate : isSurrogate n = true)
    (hlone : n < 0xDC00 → ∀ tail, rest ≠ '\\' :: 'u' :: tail) :
    readUnit cs = some (replacement, rest) := by
  unfold readUnit
  simp only [hhex, Option.bind_eq_bind, Option.bind_some, hsurrogate, if_true]
  split
  · next tail =>
      have hlow : ¬n < 0xDC00 := fun hlt => hlone hlt tail rfl
      split
      · rw [if_neg fun h => hlow h.1]
      · rfl
  · rfl

private theorem readUnit_filled (hnames : ∀ i, IsName (name i)) {ps : List (Piece ι)}
    {out : List Char} (hfits : Fits name value holes ('\\' :: 'u' :: cs))
    (hread : readUnit cs = some (c, rest))
    (hnext : Literal (readPiece name holes) rest ps out) :
    readUnit (filled name value holes cs) = some (c, filled name value holes rest) := by
  obtain ⟨⟨n, rest₁⟩, hhex, hchar⟩ := Option.bind_eq_some_iff.mp hread
  obtain ⟨digits, hcs, -, hbrace, hdigits⟩ := readHex_eq_some hhex
  have hhex' : readHex (filled name value holes cs) = some (n, filled name value holes rest₁) := by
    rw [hcs, filled_append hnames hbrace]
    exact hdigits _
  dsimp only at hchar
  split at hchar
  · next hsurrogate =>
      split at hchar
      · next tail =>
          have hpair : filled name value holes ('\\' :: 'u' :: tail) =
              '\\' :: 'u' :: filled name value holes tail := by
            rw [filled_cons_of_ne hnames (by decide), filled_cons_of_ne hnames (by decide)]
          split at hchar
          · next low tail' hlow =>
              obtain ⟨digits', htail, -, hbrace', hdigits'⟩ := readHex_eq_some hlow
              have hlow' : readHex (filled name value holes tail) =
                  some (low, filled name value holes tail') := by
                rw [htail, filled_append hnames hbrace']
                exact hdigits' _
              unfold readUnit
              simp only [hhex', Option.bind_eq_bind, Option.bind_some, hsurrogate, if_true, hpair,
                hlow']
              split at hchar <;> obtain ⟨rfl, rfl⟩ := Prod.mk.inj (Option.some.inj hchar)
              · next hboth => rw [if_pos hboth]
              · next hboth => rw [if_neg hboth, hpair]
          · next hlow =>
              -- the next unit of the literal cannot be read
              obtain ⟨rfl, rfl⟩ := Prod.mk.inj (Option.some.inj hchar)
              cases hnext with
              | unit _ hunit _ =>
                  rw [readPiece_char (holeAt_of_ne hnames (by decide))] at hunit
                  simp [readChar, readUnit, hlow] at hunit
      · next hdefault =>
          obtain ⟨rfl, rfl⟩ := Prod.mk.inj (Option.some.inj hchar)
          apply readUnit_lone hhex' hsurrogate
          intro hlt tail htail
          cases hhole : holeAt name holes rest₁ with
          | some i =>
              obtain ⟨rest', hrest⟩ := exists_rest_of_holeAt hhole
              have hne : value i ≠ [] := fun hempty => hfits.apart _ (List.suffix_refl _)
                ⟨cs, rest₁, n, i, rfl, hhex, hsurrogate, hlt, hhole, hempty⟩
              obtain ⟨d, text, hvalue⟩ := List.exists_cons_of_ne_nil hne
              have hplain := hfits.plain i (List.mem_of_find?_eq_some hhole)
                ⟨'\\' :: 'u' :: digits, rest', by simp [hcs, hrest]⟩ d (by simp [hvalue])
              have hfilled : filled name value holes rest₁ = value i ++ _ :=
                filled_of_holeAt hnames hhole hrest
              rw [htail, hvalue, List.cons_append] at hfilled
              exact (isPlain_spec hplain).2.1 (List.cons.inj hfilled).1.symm
          | none =>
              cases rest₁ with
              | nil => simp [filled] at htail
              | cons d r =>
                  rw [filled, pieces_char hhole, fill_cons] at htail
                  obtain ⟨rfl, hr⟩ := List.cons.inj htail
                  cases hhole' : holeAt name holes r with
                  | some i =>
                      -- a brace is no escape, so that the next unit could not be read
                      obtain ⟨rest', hrest⟩ := exists_rest_of_holeAt hhole'
                      obtain ⟨word, hword, -⟩ := hnames i
                      rw [hword] at hrest
                      cases hnext with
                      | unit _ hunit _ =>
                          rw [readPiece_char (holeAt_of_ne hnames (by decide)), hrest] at hunit
                          simp [readChar, braced, shortEscapes] at hunit
                  | none =>
                      cases r with
                      | nil => simp at hr
                      | cons e r =>
                          rw [pieces_char hhole', fill_cons] at hr
                          obtain ⟨rfl, -⟩ := List.cons.inj hr
                          exact hdefault r rfl
  · next hsurrogate =>
      obtain ⟨rfl, rfl⟩ := Prod.mk.inj (Option.some.inj hchar)
      unfold readUnit
      simp only [hhex', Option.bind_eq_bind, Option.bind_some, if_neg hsurrogate]

private theorem readChar_filled (hnames : ∀ i, IsName (name i)) {ps : List (Piece ι)}
    {out : List Char} (hfits : Fits name value holes cs) (hnone : holeAt name holes cs = none)
    (hread : readChar cs = some (c, rest))
    (hnext : Literal (readPiece name holes) rest ps out) :
    readChar (filled name value holes cs) = some (c, filled name value holes rest) := by
  unfold readChar at hread
  split at hread
  · next e tail =>
      split at hread
      · next hu =>
          subst hu
          rw [filled_cons_of_ne hnames (by decide), filled_cons_of_ne hnames (by decide)]
          exact readUnit_filled hnames hfits hread hnext
      · next hu =>
          have hbrace : e ≠ '{' := by
            rintro rfl
            simp [shortEscapes] at hread
          rw [filled_cons_of_ne hnames (by decide), filled_cons_of_ne hnames hbrace]
          unfold readChar
          split at hread
          · next hslash =>
              obtain ⟨rfl, rfl⟩ := Prod.mk.inj (Option.some.inj hread)
              simp only [if_neg hu, if_pos hslash]
          · next hslash =>
              obtain ⟨p, hp, heq⟩ := Option.map_eq_some_iff.mp hread
              obtain ⟨rfl, rfl⟩ := Prod.mk.inj heq
              simp only [if_neg hu, if_neg hslash, hp, Option.map_some]
  · simp at hread
  · next d tail hescape hlone =>
      split at hread
      · simp at hread
      · next hspace =>
          obtain ⟨rfl, rfl⟩ := Prod.mk.inj (Option.some.inj hread)
          rw [filled, pieces_char hnone]
          apply readChar_self _ hspace
          rintro rfl
          cases tail with
          | nil => exact hlone rfl rfl
          | cons e tail => exact hescape e tail rfl rfl
  · simp at hread

theorem Literal.filled (hnames : ∀ i, IsName (name i)) {ps : List (Piece ι)} {out : List Char}
    (h : Literal (readPiece name holes) cs ps out) (hfits : Fits name value holes cs) :
    Literal readChar (filled name value holes cs) (fill value ps)
      (filled name value holes out) := by
  induction h with
  | close rest =>
      rw [filled_cons_of_ne hnames (by decide)]
      exact .close _
  | @unit cs rest out p ps hquote hunit hrest ih =>
      cases hhole : holeAt name holes cs with
      | some i =>
          obtain ⟨rest', hcs⟩ := exists_rest_of_holeAt hhole
          rw [readPiece_hole hhole hcs] at hunit
          obtain ⟨rfl, rfl⟩ := Prod.mk.inj (Option.some.inj hunit)
          have hsuffix : rest' <:+ cs := ⟨name i, hcs.symm⟩
          rw [filled_of_holeAt hnames hhole hcs, fill_cons]
          apply literal_append
          · exact hfits.plain i (List.mem_of_find?_eq_some hhole) ⟨[], rest', by simp [hcs]⟩
          · exact ih (hfits.of_suffix hsuffix)
      | none =>
          rw [readPiece_char hhole] at hunit
          obtain ⟨⟨c, rest'⟩, hread, heq⟩ := Option.map_eq_some_iff.mp hunit
          obtain ⟨rfl, rfl⟩ := Prod.mk.inj heq
          obtain ⟨used, -, hcs⟩ := readChar_split hread
          have hsuffix : rest' <:+ cs := ⟨used, hcs.symm⟩
          have hread' := readChar_filled hnames hfits hhole hread hrest
          rw [fill_cons]
          apply Literal.unit _ hread' (ih (hfits.of_suffix hsuffix))
          cases cs with
          | nil => simp [readChar] at hread
          | cons d cs =>
              rw [JsonText.filled, pieces_char hhole, fill_cons]
              simpa [Piece.text] using hquote

theorem Literal.suffix {ps : List (Piece ι)} {out : List Char}
    (h : Literal (readPiece name holes) cs ps out) : out <:+ cs := by
  induction h with
  | close rest => exact List.suffix_cons _ _
  | @unit cs rest out p ps hquote hunit hrest ih =>
      apply ih.trans
      unfold readPiece at hunit
      split at hunit
      · obtain ⟨-, rfl⟩ := Prod.mk.inj (Option.some.inj hunit)
        exact List.drop_suffix _ _
      · obtain ⟨r, hread, heq⟩ := Option.map_eq_some_iff.mp hunit
        obtain ⟨-, rfl⟩ := Prod.mk.inj heq
        obtain ⟨used, -, hcs⟩ := readChar_split hread
        exact ⟨used, hcs.symm⟩

theorem Lexed.filled (hnames : ∀ i, IsName (name i)) {ts : List (Token (List (Piece ι)))}
    (h : Lexed (readPiece name holes) cs ts) (hfits : Fits name value holes cs) :
    Lexed readChar (filled name value holes cs) (ts.map (Token.map (fill value))) := by
  induction h with
  | nil => exact .nil
  | @space c cs ts hc hrest ih =>
      have hbrace : c ≠ '{' := by
        rintro rfl
        simp [isSpace] at hc
      rw [filled_cons_of_ne hnames hbrace]
      exact .space hc (ih (hfits.of_suffix (List.suffix_cons _ _)))
  | @str cs rest s ts hs hrest ih =>
      have hcs := hfits.of_suffix (List.suffix_cons '"' cs)
      rw [filled_cons_of_ne hnames (by decide)]
      exact .str (hs.filled hnames hcs) (ih (hcs.of_suffix hs.suffix))
  | @punct c t cs ts hc hrest ih =>
      have hnone : holeAt name holes (c :: cs) = none := by
        cases hhole : holeAt name holes (c :: cs) with
        | none => rfl
        | some i =>
            obtain ⟨rest, hcs⟩ := exists_rest_of_holeAt hhole
            have hlexed := Lexed.punct hc hrest
            rw [hcs] at hlexed
            exact absurd hlexed (not_lexed_name (hnames i))
      rw [JsonText.filled, pieces_char hnone]
      exact .punct (punct_map hc) (ih (hfits.of_suffix (List.suffix_cons _ _)))
  | @atom text rest ts htext hchars hend hrest ih =>
      have hbrace : ∀ c ∈ text, c ≠ '{' := by
        rintro c hc rfl
        have hatom := hchars '{' hc
        simp [isAtomChar] at hatom
      rw [filled_append hnames hbrace]
      apply Lexed.atom htext hchars _ (ih (hfits.of_suffix (List.suffix_append _ _)))
      intro d hd
      cases rest with
      | nil => simp [JsonText.filled] at hd
      | cons e rest =>
          have hnone : holeAt name holes (e :: rest) = none := by
            cases hhole : holeAt name holes (e :: rest) with
            | none => rfl
            | some i =>
                obtain ⟨rest', hcs⟩ := exists_rest_of_holeAt hhole
                rw [hcs] at hrest
                exact absurd hrest (not_lexed_name (hnames i))
          rw [JsonText.filled, pieces_char hnone] at hd
          exact hend d hd

theorem Literal.exists_pieces (hnames : ∀ i, IsName (name i)) {as out : List Char}
    (h : Literal readChar cs as out) : ∃ ps, Literal (readPiece name holes) cs ps out := by
  induction hn : cs.length using Nat.strong_induction_on generalizing cs as with
  | h n ih =>
      cases hhole : holeAt name holes cs with
      | some i =>
          obtain ⟨rest, hcs⟩ := exists_rest_of_holeAt hhole
          obtain ⟨word, hword, -⟩ := hnames i
          have hlt : rest.length < n := by
            rw [← hn, hcs, hword]
            simp only [braced, List.length_append, List.length_cons]
            omega
          rw [hcs] at h
          obtain ⟨as', hrest⟩ := literal_of_append (isPlain_of_isName (hnames i)) h
          obtain ⟨ps, hps⟩ := ih rest.length hlt hrest rfl
          refine ⟨.hole i :: ps, .unit ?_ ?_ hps⟩
          · simp [hcs, hword, braced]
          · exact readPiece_hole hhole hcs
      | none =>
          cases h with
          | close rest => exact ⟨[], .close _⟩
          | @unit _ rest _ c as hquote hunit hrest =>
              obtain ⟨ps, hps⟩ := ih rest.length (hn ▸ readChar_length hunit) hrest rfl
              exact ⟨.char c :: ps, .unit hquote (by rw [readPiece_char hhole, hunit]; rfl) hps⟩

theorem Lexed.exists_pieces (hnames : ∀ i, IsName (name i)) {ts : List (Token (List Char))}
    (h : Lexed readChar cs ts) : ∃ ts', Lexed (readPiece name holes) cs ts' := by
  induction h with
  | nil => exact ⟨[], .nil⟩
  | space hc _ ih =>
      obtain ⟨ts', h'⟩ := ih
      exact ⟨ts', .space hc h'⟩
  | str hs _ ih =>
      obtain ⟨ps, hps⟩ : ∃ ps, Literal (readPiece name holes) _ ps _ := hs.exists_pieces hnames
      obtain ⟨ts', h'⟩ := ih
      exact ⟨_, .str hps h'⟩
  | @punct c t cs ts hc _ ih =>
      obtain ⟨ts', h'⟩ := ih
      exact ⟨_, .punct (punct_map (f := List.map Piece.char) hc) h'⟩
  | atom htext hchars hend _ ih =>
      obtain ⟨ts', h'⟩ := ih
      exact ⟨_, .atom htext hchars hend h'⟩

theorem Literal.infix_of_hole {ps : List (Piece ι)} {out : List Char}
    (h : Literal (readPiece name holes) cs ps out) {i : ι} (hi : .hole i ∈ ps) :
    name i <:+: cs := by
  induction h with
  | close rest => simp at hi
  | @unit cs rest out p ps hquote hunit hrest ih =>
      cases hhole : holeAt name holes cs with
      | some j =>
          obtain ⟨rest', hcs⟩ := exists_rest_of_holeAt hhole
          rw [readPiece_hole hhole hcs] at hunit
          obtain ⟨rfl, rfl⟩ := Prod.mk.inj (Option.some.inj hunit)
          rcases List.mem_cons.mp hi with heq | hi
          · obtain rfl := Piece.hole.inj heq
            exact ⟨[], rest', by simp [hcs]⟩
          · have hsuffix : rest' <:+ cs := ⟨name j, hcs.symm⟩
            exact (ih hi).trans hsuffix.isInfix
      | none =>
          rw [readPiece_char hhole] at hunit
          obtain ⟨⟨c, rest'⟩, hread, heq⟩ := Option.map_eq_some_iff.mp hunit
          obtain ⟨rfl, rfl⟩ := Prod.mk.inj heq
          obtain ⟨used, -, hcs⟩ := readChar_split hread
          have hsuffix : rest' <:+ cs := ⟨used, hcs.symm⟩
          exact (ih (by simpa using hi)).trans hsuffix.isInfix

theorem Lexed.infix_of_hole {ts : List (Token (List (Piece ι)))}
    (h : Lexed (readPiece name holes) cs ts) {ps : List (Piece ι)} (hps : .str ps ∈ ts) {i : ι}
    (hi : .hole i ∈ ps) : name i <:+: cs := by
  induction h with
  | nil => simp at hps
  | space hc hrest ih => exact (ih hps).trans (List.suffix_cons _ _).isInfix
  | @str cs rest s ts hs hrest ih =>
      have hcs : cs <:+ '"' :: cs := List.suffix_cons _ _
      rcases List.mem_cons.mp hps with heq | hps
      · obtain rfl := Token.str.inj heq
        exact (hs.infix_of_hole hi).trans hcs.isInfix
      · exact (ih hps).trans (hs.suffix.trans hcs).isInfix
  | @punct c t cs ts hc hrest ih =>
      have hstr : .str ps ≠ t := by
        rintro rfl
        unfold JsonText.punct at hc
        split at hc <;> simp at hc
      exact (ih ((List.mem_cons.mp hps).resolve_left hstr)).trans (List.suffix_cons _ _).isInfix
  | atom htext hchars hend hrest ih =>
      exact (ih (by simpa using hps)).trans (List.suffix_append _ _).isInfix

private theorem readPiece_shorter (hnames : ∀ i, IsName (name i)) (cs : List Char) (p : Piece ι)
    (rest : List Char) (h : readPiece name holes cs = some (p, rest)) :
    rest.length < cs.length := by
  refine readPiece_length (fun i => ?_) h
  obtain ⟨word, hword, -⟩ := hnames i
  simp [hword, braced]

theorem exists_template (hnames : ∀ i, IsName (name i)) {ts : List (Token (List Char))}
    (h : tokens readChar cs = some ts) :
    ∃ ts', tokens (readPiece name holes) cs = some ts' ∧ ts = ts'.map (Token.map (fill name)) := by
  have hshort : ∀ cs c rest, readChar cs = some (c, rest) → rest.length < cs.length :=
    fun _ _ _ h => readChar_length h
  obtain ⟨ts', h'⟩ : ∃ ts', Lexed (readPiece name holes) cs ts' :=
    ((tokens_eq_some_iff hshort).mp h).exists_pieces hnames
  have hne : ∀ i, name i ≠ [] := by
    intro i
    obtain ⟨word, hword, -⟩ := hnames i
    simp [hword, braced]
  have hfits : Fits name name holes cs := by
    refine ⟨fun i _ _ => isPlain_of_isName (hnames i), ?_⟩
    rintro s - ⟨tail, rest, n, i, -, -, -, -, -, hempty⟩
    exact hne i hempty
  refine ⟨ts', (tokens_eq_some_iff (readPiece_shorter hnames)).mpr h', ?_⟩
  have hfilled := (tokens_eq_some_iff hshort).mpr (h'.filled hnames hfits)
  rw [filled, fill_pieces hne, h] at hfilled
  exact Option.some.inj hfilled

theorem tokens_filled (hnames : ∀ i, IsName (name i)) {ts : List (Token (List (Piece ι)))}
    (h : tokens (readPiece name holes) cs = some ts) (hfits : Fits name value holes cs) :
    tokens readChar (filled name value holes cs) = some (ts.map (Token.map (fill value))) :=
  (tokens_eq_some_iff fun _ _ _ h => readChar_length h).mpr
    (((tokens_eq_some_iff (readPiece_shorter hnames)).mp h).filled hnames hfits)

theorem infix_of_hole (hnames : ∀ i, IsName (name i)) {ts : List (Token (List (Piece ι)))}
    (h : tokens (readPiece name holes) cs = some ts) {ps : List (Piece ι)} (hps : .str ps ∈ ts)
    {i : ι} (hi : .hole i ∈ ps) : name i <:+: cs :=
  ((tokens_eq_some_iff (readPiece_shorter hnames)).mp h).infix_of_hole hps hi

end

end Lib.JsonText
