import NotificationPlatform.Lib.JsonSyntax
import NotificationPlatform.Lib.TextTemplates

/-!
# The tokens of JSON texts

A text is cut into tokens before it is parsed. What stands in its string literals is read unit by
unit: the units are the characters, or in a template also the placeholders. Filling a template and
then reading it gives the tokens that are read from the template and then filled, provided that what
is put in needs no escapes.
-/

namespace Lib.JsonText

open Template

inductive Token (σ : Type) where
  | lbrace
  | rbrace
  | lbracket
  | rbracket
  | colon
  | comma
  | str (s : σ)
  | atom (text : List Char)
  deriving DecidableEq, Repr

def Token.map {σ τ : Type} (f : σ → τ) : Token σ → Token τ
  | .lbrace => .lbrace
  | .rbrace => .rbrace
  | .lbracket => .lbracket
  | .rbracket => .rbracket
  | .colon => .colon
  | .comma => .comma
  | .str s => .str (f s)
  | .atom text => .atom text

def punct {σ : Type} : Char → Option (Token σ)
  | '{' => some .lbrace
  | '}' => some .rbrace
  | '[' => some .lbracket
  | ']' => some .rbracket
  | ':' => some .colon
  | ',' => some .comma
  | _ => none

theorem punct_map {σ τ : Type} {f : σ → τ} {c : Char} {t : Token σ} (h : punct c = some t) :
    punct c = some (t.map f) := by
  unfold punct at h
  split at h <;> first
    | (obtain rfl := Option.some.inj h; rfl)
    | simp at h

def isAtomChar (c : Char) : Bool := c.isAlphanum || c == '+' || c == '-' || c == '.'

def words : List (List Char) := ["null".toList, "true".toList, "false".toList]

def isAtom (text : List Char) : Bool := words.contains text || skipNumber text == some []

/-! ## Reading -/

section

variable {α : Type}

def readUnits (unit : List Char → Option (α × List Char)) :
    Nat → List Char → Option (List α × List Char)
  | 0, _ => none
  | _ + 1, '"' :: rest => some ([], rest)
  | fuel + 1, cs => do
      let (a, rest) ← unit cs
      let (as, rest) ← readUnits unit fuel rest
      some (a :: as, rest)

/-- The tokens of a text. Each round consumes a character, so the length of the text is enough
fuel. -/
def readTokens (unit : List Char → Option (α × List Char)) :
    Nat → List Char → Option (List (Token (List α)))
  | 0, _ => none
  | _ + 1, [] => some []
  | fuel + 1, c :: cs =>
      if isSpace c then readTokens unit fuel cs
      else if c = '"' then do
        let (s, rest) ← readUnits unit (cs.length + 1) cs
        let ts ← readTokens unit fuel rest
        some (.str s :: ts)
      else
        match punct c with
        | some t => do
            let ts ← readTokens unit fuel cs
            some (t :: ts)
        | none =>
            let text := (c :: cs).takeWhile isAtomChar
            if isAtom text then do
              let ts ← readTokens unit fuel ((c :: cs).dropWhile isAtomChar)
              some (.atom text :: ts)
            else none

def tokens (unit : List Char → Option (α × List Char)) (cs : List Char) :
    Option (List (Token (List α))) := readTokens unit (cs.length + 1) cs

variable {unit : List Char → Option (α × List Char)}

/-- The units of a literal whose opening quote is gone, and what follows the closing one. -/
inductive Literal (unit : List Char → Option (α × List Char)) :
    List Char → List α → List Char → Prop
  | close (rest : List Char) : Literal unit ('"' :: rest) [] rest
  | unit {cs rest out : List Char} {a : α} {as : List α} (hquote : cs.head? ≠ some '"')
      (hunit : unit cs = some (a, rest)) (hrest : Literal unit rest as out) :
      Literal unit cs (a :: as) out

inductive Lexed (unit : List Char → Option (α × List Char)) :
    List Char → List (Token (List α)) → Prop
  | nil : Lexed unit [] []
  | space {c : Char} {cs : List Char} {ts : List (Token (List α))} (hc : isSpace c = true)
      (hrest : Lexed unit cs ts) : Lexed unit (c :: cs) ts
  | str {cs rest : List Char} {s : List α} {ts : List (Token (List α))}
      (hs : Literal unit cs s rest) (hrest : Lexed unit rest ts) :
      Lexed unit ('"' :: cs) (.str s :: ts)
  | punct {c : Char} {t : Token (List α)} {cs : List Char} {ts : List (Token (List α))}
      (hc : punct c = some t) (hrest : Lexed unit cs ts) : Lexed unit (c :: cs) (t :: ts)
  | atom {text rest : List Char} {ts : List (Token (List α))} (htext : isAtom text = true)
      (hchars : ∀ c ∈ text, isAtomChar c = true)
      (hend : ∀ c ∈ rest.head?, isAtomChar c = false) (hrest : Lexed unit rest ts) :
      Lexed unit (text ++ rest) (.atom text :: ts)

theorem literal_of_readUnits {fuel : Nat} {cs rest : List Char} {as : List α}
    (h : readUnits unit fuel cs = some (as, rest)) : Literal unit cs as rest := by
  induction fuel generalizing cs as with
  | zero => simp [readUnits] at h
  | succ fuel ih =>
      by_cases hquote : cs.head? = some '"'
      · obtain ⟨tail, rfl⟩ := List.head?_eq_some_iff.mp hquote
        obtain ⟨rfl, rfl⟩ := Prod.mk.inj (Option.some.inj h)
        exact .close _
      · rw [readUnits] at h
        · obtain ⟨⟨a, rest₁⟩, hunit, h⟩ := Option.bind_eq_some_iff.mp h
          obtain ⟨⟨as₁, rest₂⟩, hrest, h⟩ := Option.bind_eq_some_iff.mp h
          obtain ⟨rfl, rfl⟩ := Prod.mk.inj (Option.some.inj h)
          exact .unit hquote hunit (ih hrest)
        · rintro tail rfl
          exact hquote rfl

theorem Literal.readUnits (hshort : ∀ cs a rest, unit cs = some (a, rest) →
    rest.length < cs.length) {cs rest : List Char} {as : List α} (h : Literal unit cs as rest) :
    rest.length < cs.length ∧
      ∀ fuel, cs.length < fuel → readUnits unit fuel cs = some (as, rest) := by
  induction h with
  | close rest =>
      refine ⟨by simp, fun fuel hfuel => ?_⟩
      cases fuel with
      | zero => simp at hfuel
      | succ fuel => rfl
  | @unit cs rest out a as hquote hunit hrest ih =>
      have hlt := hshort _ _ _ hunit
      refine ⟨by omega, fun fuel hfuel => ?_⟩
      cases fuel with
      | zero => simp at hfuel
      | succ fuel =>
          rw [JsonText.readUnits]
          · simp [hunit, ih.2 fuel (by omega)]
          · rintro tail rfl
            exact hquote rfl

theorem isAtom_ne_nil {text : List Char} (h : isAtom text = true) : text ≠ [] := by
  rintro rfl
  exact absurd h (by decide)

theorem lexed_of_readTokens {fuel : Nat} {cs : List Char} {ts : List (Token (List α))}
    (h : readTokens unit fuel cs = some ts) : Lexed unit cs ts := by
  induction fuel generalizing cs ts with
  | zero => simp [readTokens] at h
  | succ fuel ih =>
      cases cs with
      | nil =>
          obtain rfl := Option.some.inj h
          exact .nil
      | cons c cs =>
          rw [readTokens] at h
          split at h
          · next hspace => exact .space hspace (ih h)
          · split at h
            · next hquote =>
                subst hquote
                obtain ⟨⟨s, rest⟩, hs, h⟩ := Option.bind_eq_some_iff.mp h
                obtain ⟨ts', hrest, h⟩ := Option.bind_eq_some_iff.mp h
                obtain rfl := Option.some.inj h
                exact .str (literal_of_readUnits hs) (ih hrest)
            · split at h
              · next t ht =>
                  obtain ⟨ts', hrest, h⟩ := Option.bind_eq_some_iff.mp h
                  obtain rfl := Option.some.inj h
                  exact .punct ht (ih hrest)
              · dsimp only at h
                split at h
                · next hatom =>
                    obtain ⟨ts', hrest, h⟩ := Option.bind_eq_some_iff.mp h
                    obtain rfl := Option.some.inj h
                    have hlexed := Lexed.atom hatom
                      (fun d hd => List.all_eq_true.mp List.all_takeWhile d hd) (fun d hd => by
                        have hnot := List.head?_dropWhile_not isAtomChar (c :: cs)
                        rw [Option.mem_def.mp hd] at hnot
                        exact hnot) (ih hrest)
                    rwa [List.takeWhile_append_dropWhile] at hlexed
                · simp at h

theorem atomChar_spec {c : Char} (h : isAtomChar c = true) :
    isSpace c = false ∧ c ≠ '"' ∧ c ≠ '\\' ∧ punct (σ := List α) c = none := by
  refine ⟨?_, ?_, ?_, ?_⟩
  · by_contra hspace
    rw [Bool.not_eq_false] at hspace
    simp only [isSpace, Bool.or_eq_true, beq_iff_eq] at hspace
    rcases hspace with ((rfl | rfl) | rfl) | rfl <;> simp [isAtomChar] at h
  · rintro rfl
    simp [isAtomChar] at h
  · rintro rfl
    simp [isAtomChar] at h
  · unfold punct
    split <;> simp_all [isAtomChar]

private theorem punct_spec {c : Char} {t : Token (List α)} (h : punct c = some t) :
    isSpace c = false ∧ c ≠ '"' := by
  unfold punct at h
  split at h <;> simp_all [isSpace]

theorem Lexed.readTokens (hshort : ∀ cs a rest, unit cs = some (a, rest) →
    rest.length < cs.length) {cs : List Char} {ts : List (Token (List α))} (h : Lexed unit cs ts) :
    ∀ fuel, cs.length < fuel → readTokens unit fuel cs = some ts := by
  induction h with
  | nil =>
      intro fuel hfuel
      cases fuel with
      | zero => simp at hfuel
      | succ fuel => rfl
  | @space c cs ts hc hrest ih =>
      intro fuel hfuel
      cases fuel with
      | zero => simp at hfuel
      | succ fuel =>
          rw [JsonText.readTokens, if_pos hc]
          exact ih fuel (by simpa using hfuel)
  | @str cs rest s ts hs hrest ih =>
      intro fuel hfuel
      cases fuel with
      | zero => simp at hfuel
      | succ fuel =>
          obtain ⟨hlt, hread⟩ := hs.readUnits hshort
          have hlength : cs.length < fuel := by simpa using hfuel
          rw [JsonText.readTokens, if_neg (by decide), if_pos rfl]
          simp [hread _ (Nat.lt_succ_self _), ih fuel (by omega)]
  | @punct c t cs ts hc hrest ih =>
      intro fuel hfuel
      cases fuel with
      | zero => simp at hfuel
      | succ fuel =>
          obtain ⟨hspace, hquote⟩ := punct_spec hc
          rw [JsonText.readTokens, if_neg (by simp [hspace]), if_neg hquote]
          simp [hc, ih fuel (by simpa using hfuel)]
  | @atom text rest ts htext hchars hend hrest ih =>
      intro fuel hfuel
      cases fuel with
      | zero => simp at hfuel
      | succ fuel =>
          obtain ⟨c, cs, hcs⟩ := List.exists_cons_of_ne_nil (isAtom_ne_nil htext)
          obtain ⟨hspace, hquote, -, hpunct⟩ := atomChar_spec (α := α) (hchars c (by simp [hcs]))
          have hnone : rest.takeWhile isAtomChar = [] ∧ rest.dropWhile isAtomChar = rest := by
            cases rest with
            | nil => simp
            | cons d rest =>
                have hd := hend d rfl
                simp [hd]
          have htake : (text ++ rest).takeWhile isAtomChar = text := by
            rw [List.takeWhile_append_of_pos hchars, hnone.1, List.append_nil]
          have hdrop : (text ++ rest).dropWhile isAtomChar = rest := by
            rw [List.dropWhile_append_of_pos hchars, hnone.2]
          have hlength : rest.length < fuel := by
            simp only [hcs, List.cons_append, List.length_cons, List.length_append] at hfuel
            omega
          rw [hcs, List.cons_append] at htake hdrop ⊢
          rw [JsonText.readTokens, if_neg (by simp [hspace]), if_neg hquote]
          simp only [hpunct, htake, hdrop]
          rw [← hcs, if_pos htext, ih fuel hlength]
          rfl

theorem tokens_eq_some_iff (hshort : ∀ cs a rest, unit cs = some (a, rest) →
    rest.length < cs.length) {cs : List Char} {ts : List (Token (List α))} :
    tokens unit cs = some ts ↔ Lexed unit cs ts := by
  constructor
  · exact lexed_of_readTokens
  · intro h
    exact h.readTokens hshort _ (Nat.lt_succ_self _)

end

end Lib.JsonText
