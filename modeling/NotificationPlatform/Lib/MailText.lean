import Mathlib.Data.List.Basic
import Mathlib.Data.List.Infix

/-!
# Mail text

Text on its way to a mail server. The writer ends its lines with CRLF, puts a dot before a line that
begins with one, and ends the text with a line of a single dot; the server takes commands of a line
each and, after `DATA`, lines up to such a line. A mail is a header of fields, an empty line and a
body. Characters stand for bytes, as only ASCII characters matter.
-/

namespace Lib.Mail

/-- The state of a `dotWriter` of `textproto`. -/
inductive WriterState where
  | begin
  | beginLine
  /-- a carriage return has been written -/
  | cr
  /-- in the middle of a line -/
  | data
  deriving DecidableEq, Repr

namespace WriterState

/-- The state after a character. After a second carriage return it is not `cr`. -/
def next (s : WriterState) (c : Char) : WriterState :=
  if c = '\n' then .beginLine
  else if c = '\r' ∧ s ≠ .cr then .cr
  else .data

def lineEnd (s : WriterState) (c : Char) : List Char :=
  if c = '\n' ∧ s ≠ .cr then ['\r'] else []

def dot (s : WriterState) (c : Char) : List Char :=
  if c = '.' ∧ (s = .begin ∨ s = .beginLine) then ['.'] else []

def close : WriterState → List Char
  | .beginLine => []
  | .cr => ['\n']
  | _ => ['\r', '\n']

def run (s : WriterState) (text : List Char) : WriterState := text.foldl next s

end WriterState

def dotWrite (s : WriterState) : List Char → List Char
  | [] => s.close ++ ['.', '\r', '\n']
  | c :: cs => s.dot c ++ s.lineEnd c ++ c :: dotWrite (s.next c) cs

/-- The text as it is meant to arrive: every line ends with CRLF. -/
def lines (s : WriterState) : List Char → List Char
  | [] => s.close
  | c :: cs => s.lineEnd c ++ c :: lines (s.next c) cs

inductive ReaderState where
  | line
  /-- after a dot that began the line -/
  | dot
  | dotCR
  | data
  | cr
  deriving DecidableEq, Repr

def ReaderState.after (c : Char) : ReaderState := if c = '\r' then .cr else .data

def prepend (cs : List Char) : Option (List Char × List Char) → Option (List Char × List Char) :=
  Option.map fun (text, rest) => (cs ++ text, rest)

/-- The text up to a line of a single dot, and what follows that line. A line ends with CRLF, and
with nothing else; the dot that begins a longer line is dropped. -/
def dotRead : ReaderState → List Char → Option (List Char × List Char)
  | _, [] => none
  | .line, c :: cs => if c = '.' then dotRead .dot cs else prepend [c] (dotRead (.after c) cs)
  | .dot, c :: cs =>
      if c = '\r' then dotRead .dotCR cs else prepend [c] (dotRead (.after c) cs)
  | .dotCR, c :: cs =>
      if c = '\n' then some ([], cs) else prepend ['\r', c] (dotRead (.after c) cs)
  | .data, c :: cs => prepend [c] (dotRead (.after c) cs)
  | .cr, c :: cs => prepend [c] (dotRead (if c = '\n' then .line else .after c) cs)

/-- The writer and the server are at the same place of a line. -/
def Matches : WriterState → ReaderState → Prop
  | .begin, r | .beginLine, r => r = .line
  | .cr, r => r = .cr
  -- two carriage returns have been written
  | .data, r => r = .data ∨ r = .cr

@[simp] theorem prepend_some (cs text rest : List Char) :
    prepend cs (some (text, rest)) = some (cs ++ text, rest) := rfl

theorem dotRead_close {s : WriterState} {r : ReaderState} (h : Matches s r) (rest : List Char) :
    dotRead r (s.close ++ ['.', '\r', '\n'] ++ rest) = some (s.close, rest) := by
  cases s with
  | begin | beginLine | cr =>
      obtain rfl : r = _ := h
      simp [WriterState.close, dotRead, ReaderState.after]
  | data => rcases h with rfl | rfl <;> simp [WriterState.close, dotRead, ReaderState.after]

theorem dotRead_write {s : WriterState} {r : ReaderState} (h : Matches s r) (c : Char) :
    ∃ r', Matches (s.next c) r' ∧ ∀ cs,
      dotRead r (s.dot c ++ s.lineEnd c ++ c :: cs) =
        prepend (s.lineEnd c ++ [c]) (dotRead r' cs) := by
  have hpair : ∀ x : Option (List Char × List Char), prepend ['\r'] (prepend ['\n'] x) =
      prepend ['\r', '\n'] x := by
    rintro (_ | ⟨text, rest⟩) <;> rfl
  by_cases hlf : c = '\n'
  · subst hlf
    refine ⟨.line, by simp [WriterState.next, Matches], fun cs => ?_⟩
    cases s with
    | begin | beginLine | cr =>
        obtain rfl : r = _ := h
        simp [WriterState.dot, WriterState.lineEnd, dotRead, ReaderState.after, hpair]
    | data =>
        rcases h with rfl | rfl <;>
          simp [WriterState.dot, WriterState.lineEnd, dotRead, ReaderState.after, hpair]
  · refine ⟨.after c, ?_, fun cs => ?_⟩
    · cases s <;> by_cases hcr : c = '\r' <;>
        simp [WriterState.next, Matches, ReaderState.after, hlf, hcr]
    · cases s with
      | begin | beginLine =>
          obtain rfl : r = _ := h
          by_cases hdot : c = '.' <;>
            simp [WriterState.dot, WriterState.lineEnd, dotRead, ReaderState.after, hlf, hdot]
      | cr =>
          obtain rfl : r = _ := h
          simp [WriterState.dot, WriterState.lineEnd, dotRead, hlf]
      | data =>
          rcases h with rfl | rfl <;>
            simp [WriterState.dot, WriterState.lineEnd, dotRead, hlf]

/-- **The text arrives, and its end is where it ends.** -/
theorem dotRead_dotWrite {s : WriterState} {r : ReaderState} (h : Matches s r)
    (text rest : List Char) : dotRead r (dotWrite s text ++ rest) = some (lines s text, rest) := by
  induction text generalizing s r with
  | nil => exact dotRead_close h rest
  | cons c cs ih =>
    obtain ⟨r', hr', hread⟩ := dotRead_write h c
    have hwrite := hread (dotWrite (s.next c) cs ++ rest)
    rw [ih hr'] at hwrite
    simpa [dotWrite, lines] using hwrite

inductive Item where
  | command (line : List Char)
  | mail (text : List Char)
  deriving DecidableEq, Repr

def Item.written : Item → List Char
  | .command line => line ++ ['\r', '\n']
  | .mail text => dotWrite .begin text

def Item.received : Item → Item
  | .command line => .command line
  | .mail text => .mail (lines .begin text)

/-- What a client says of the items from the `n`th on: it stops at the first that is refused. -/
def said (accepts : Nat → Bool) : Nat → List Item → List Item
  | _, [] => []
  | n, item :: items => item :: if accepts n then said accepts (n + 1) items else []

theorem initial_said (accepts : Nat → Bool) (n : Nat) (items : List Item) :
    said accepts n items <+: items := by
  induction items generalizing n with
  | nil => exact List.prefix_rfl
  | cons item items ih =>
    rw [said, List.prefix_cons_inj]
    split
    · exact ih (n + 1)
    · exact List.nil_prefix

theorem said_eq {accepts : Nat → Bool} {n : Nat} {items : List Item}
    (h : ∀ k < items.length, accepts (n + k) = true) : said accepts n items = items := by
  induction items generalizing n with
  | nil => rfl
  | cons item items ih =>
    have hfirst : accepts n = true := h 0 (by simp)
    rw [said, if_pos hfirst, ih]
    intro k hk
    rw [Nat.add_right_comm]
    exact h (k + 1) (by simpa using hk)

def readLine : List Char → Option (List Char × List Char)
  | '\r' :: '\n' :: cs => some ([], cs)
  | c :: cs => prepend [c] (readLine cs)
  | [] => none

def isData (line : List Char) : Bool := line.map Char.toUpper == ['D', 'A', 'T', 'A']

theorem exists_of_prepend {cs text rest : List Char}
    {x : Option (List Char × List Char)} (h : prepend cs x = some (text, rest)) :
    ∃ tail, x = some (tail, rest) ∧ text = cs ++ tail := by
  obtain ⟨⟨tail, rest'⟩, rfl, heq⟩ := Option.map_eq_some_iff.mp h
  obtain ⟨rfl, rfl⟩ := Prod.mk.inj heq
  exact ⟨tail, rfl, rfl⟩

theorem dotRead_length {r : ReaderState} {cs text rest : List Char}
    (h : dotRead r cs = some (text, rest)) : rest.length < cs.length := by
  induction cs generalizing r text with
  | nil => simp [dotRead] at h
  | cons c cs ih =>
    have hread : ∀ {before : List Char} {r' : ReaderState},
        prepend before (dotRead r' cs) = some (text, rest) → rest.length < (c :: cs).length := by
      intro before r' hprepend
      obtain ⟨tail, hcs, -⟩ := exists_of_prepend hprepend
      exact (ih hcs).trans (by simp)
    cases r with
    | line =>
      rw [dotRead] at h
      split at h
      · exact (ih h).trans (by simp)
      · exact hread h
    | dot =>
      rw [dotRead] at h
      split at h
      · exact (ih h).trans (by simp)
      · exact hread h
    | dotCR =>
      rw [dotRead] at h
      split at h
      · obtain ⟨-, rfl⟩ := Prod.mk.inj (Option.some.inj h)
        simp
      · exact hread h
    | data | cr => exact hread h

theorem readLine_length {cs line rest : List Char} (h : readLine cs = some (line, rest)) :
    rest.length < cs.length := by
  induction cs using readLine.induct generalizing line with
  | case1 cs =>
    simp only [readLine, Option.some.injEq, Prod.mk.injEq] at h
    simp only [← h.2, List.length_cons]
    omega
  | case2 c cs hne ih =>
    rw [readLine] at h
    · obtain ⟨tail, hcs, -⟩ := exists_of_prepend h
      exact (ih hcs).trans (by simp)
    · exact hne
  | case3 => simp [readLine] at h

/-- What a server reads that replies by `accepts`: commands, and a mail after each `DATA` that it
accepts. -/
def readSession (accepts : Nat → Bool) (n : Nat) (inMail : Bool) (input : List Char) : List Item :=
  if inMail then
    match _h : dotRead .line input with
    | some (text, rest) => .mail text :: readSession accepts (n + 1) false rest
    | none => []
  else
    match _h : readLine input with
    | some (line, rest) =>
        .command line :: readSession accepts (n + 1) (isData line && accepts n) rest
    | none => []
termination_by input.length
decreasing_by
  · exact dotRead_length _h
  · exact readLine_length _h

/-- The items are commands of one line, and a mail after each `DATA`. -/
def WellFormed : Bool → List Item → Prop
  | _, [] => True
  | inMail, .command line :: items => inMail = false ∧ '\n' ∉ line ∧ WellFormed (isData line) items
  | inMail, .mail _ :: items => inMail = true ∧ WellFormed false items

theorem readLine_append {line : List Char} (h : '\n' ∉ line) (rest : List Char) :
    readLine (line ++ '\r' :: '\n' :: rest) = some (line, rest) := by
  induction line with
  | nil => simp [readLine]
  | cons c cs ih =>
    simp only [List.mem_cons, not_or] at h
    rw [List.cons_append, readLine, ih h.2]
    · rfl
    · rintro tail - htail
      cases cs with
      | nil => simp at htail
      | cons d cs => simp_all

theorem readSession_nil (accepts : Nat → Bool) (n : Nat) (inMail : Bool) :
    readSession accepts n inMail [] = [] := by
  unfold readSession
  cases inMail <;> rfl

theorem readSession_command {accepts : Nat → Bool} {n : Nat} {line input rest : List Char}
    (h : readLine input = some (line, rest)) : readSession accepts n false input =
      .command line :: readSession accepts (n + 1) (isData line && accepts n) rest := by
  rw [readSession, if_neg Bool.false_ne_true]
  split
  · next hread =>
      obtain ⟨rfl, rfl⟩ := Prod.mk.inj (Option.some.inj (h.symm.trans hread))
      rfl
  · next hread => simp [h] at hread

theorem readSession_mail {accepts : Nat → Bool} {n : Nat} {text input rest : List Char}
    (h : dotRead .line input = some (text, rest)) : readSession accepts n true input =
      .mail text :: readSession accepts (n + 1) false rest := by
  rw [readSession, if_pos rfl]
  split
  · next hread =>
      obtain ⟨rfl, rfl⟩ := Prod.mk.inj (Option.some.inj (h.symm.trans hread))
      rfl
  · next hread => simp [h] at hread

/-- **Nothing that is said is taken for something else.** However the server replies, it reads the
items that the client says, one for one. -/
theorem readSession_said (accepts : Nat → Bool) {items : List Item} {inMail : Bool} (n : Nat)
    (h : WellFormed inMail items) :
    readSession accepts n inMail ((said accepts n items).flatMap Item.written) =
      (said accepts n items).map Item.received := by
  induction items generalizing n inMail with
  | nil => exact readSession_nil accepts n inMail
  | cons item items ih =>
    cases item with
    | command line =>
      obtain ⟨rfl, hline, hitems⟩ := h
      rw [said, List.flatMap_cons, List.map_cons, Item.written, List.append_assoc,
        List.cons_append, List.singleton_append, readSession_command (readLine_append hline _)]
      cases haccepts : accepts n with
      | true => simp [Item.received, ih (n + 1) hitems]
      | false => simp [Item.received, readSession_nil]
    | mail text =>
      obtain ⟨rfl, hitems⟩ := h
      rw [said, List.flatMap_cons, List.map_cons, Item.written,
        readSession_mail (dotRead_dotWrite (show Matches .begin .line from rfl) text _)]
      cases haccepts : accepts n with
      | true => simp [Item.received, ih (n + 1) hitems]
      | false => simp [Item.received, readSession_nil]

def readHead (text : List Char) : Option (List (List Char) × List Char) :=
  match _h : readLine text with
  | none => none
  | some ([], rest) => some ([], rest)
  | some (c :: cs, rest) => (readHead rest).map fun (head, body) => ((c :: cs) :: head, body)
termination_by text.length
decreasing_by exact readLine_length _h

def isBlank (c : Char) : Bool := c == ' ' || c == '\t'

def unfoldLines : List (List Char) → List (List Char)
  | [] => []
  | line :: head =>
      match unfoldLines head with
      | (c :: cs) :: fields => if isBlank c then (line ++ c :: cs) :: fields
          else line :: (c :: cs) :: fields
      | fields => line :: fields

def readField (field : List Char) : Option (List Char × List Char) :=
  match field.dropWhile (· != ':') with
  | ':' :: ' ' :: value => some (field.takeWhile (· != ':'), value)
  | ':' :: value => some (field.takeWhile (· != ':'), value)
  | _ => none

def readMail (text : List Char) : Option (List (List Char × List Char) × List Char) := do
  let (head, body) ← readHead text
  let fields ← (unfoldLines head).mapM readField
  some (fields, body)

def fieldText (field : List Char × List Char) : List Char :=
  field.1 ++ ':' :: ' ' :: field.2 ++ ['\r', '\n']

def mailText (fields : List (List Char × List Char)) (body : List Char) : List Char :=
  fields.flatMap fieldText ++ '\r' :: '\n' :: body

/-- What a name of a field may be: it has no line end and no colon and begins with no blank. -/
structure IsName (name : List Char) : Prop where
  ne_nil : name ≠ []
  no_lf : '\n' ∉ name
  no_colon : ':' ∉ name
  no_blank : ∀ c ∈ name.head?, isBlank c = false

/-- The value as it is read: a carriage return at its end is doubled, unless it is the second of
two. -/
def readValue (value : List Char) : List Char :=
  if WriterState.run .data value = .cr then value ++ ['\r'] else value

theorem run_ne_cr {s : WriterState} (hs : s ≠ .cr) {text : List Char} (h : '\r' ∉ text) :
    s.run text ≠ .cr := by
  induction text generalizing s with
  | nil => exact hs
  | cons c cs ih =>
    simp only [List.mem_cons, not_or] at h
    refine ih ?_ h.2
    unfold WriterState.next
    split
    · simp
    · simp [Ne.symm h.1]

theorem run_append (s : WriterState) (xs ys : List Char) :
    s.run (xs ++ ys) = (s.run xs).run ys := List.foldl_append

theorem lines_append {s : WriterState} {xs : List Char} (h : '\n' ∉ xs) (ys : List Char) :
    lines s (xs ++ ys) = xs ++ lines (s.run xs) ys := by
  induction xs generalizing s with
  | nil => rfl
  | cons c cs ih =>
    simp only [List.mem_cons, not_or] at h
    have hc : c ≠ '\n' := fun heq => h.1 heq.symm
    rw [List.cons_append, lines, ih h.2]
    simp [WriterState.lineEnd, hc, WriterState.run]

theorem lines_crlf (s : WriterState) (ys : List Char) :
    lines s ('\r' :: '\n' :: ys) =
      (if s = .cr then ['\r'] else []) ++ '\r' :: '\n' :: lines .beginLine ys := by
  cases s <;> rfl

def readText (field : List Char × List Char) : List Char :=
  field.1 ++ ':' :: ' ' :: readValue field.2

theorem lines_field {field : List Char × List Char} (hname : IsName field.1)
    (hvalue : '\n' ∉ field.2) (s : WriterState) (ys : List Char) :
    lines s (fieldText field ++ ys) =
      readText field ++ '\r' :: '\n' :: lines .beginLine ys := by
  have hline : '\n' ∉ field.1 ++ ':' :: ' ' :: field.2 := by
    simp [hname.no_lf, hvalue]
  have hstate : s.run (field.1 ++ ':' :: ' ' :: field.2) = WriterState.run .data field.2 := by
    rw [run_append]
    simp [WriterState.run, WriterState.next]
  have htext : fieldText field ++ ys =
      (field.1 ++ ':' :: ' ' :: field.2) ++ '\r' :: '\n' :: ys := by
    simp [fieldText]
  rw [htext, lines_append hline, lines_crlf, hstate]
  unfold readText readValue
  split <;> simp

theorem lines_mailText {fields : List (List Char × List Char)} (hnames : ∀ f ∈ fields, IsName f.1)
    (hvalues : ∀ f ∈ fields, '\n' ∉ f.2) {s : WriterState} (hs : s ≠ .cr) (body : List Char) :
    lines s (mailText fields body) =
      (fields.map readText).flatMap (· ++ ['\r', '\n']) ++
        '\r' :: '\n' :: lines .beginLine body := by
  induction fields generalizing s with
  | nil => simp [mailText, lines_crlf, hs]
  | cons field fields ih =>
    obtain ⟨⟨hname, hnames⟩, hvalue, hvalues⟩ :=
      And.intro (List.forall_mem_cons.mp hnames) (List.forall_mem_cons.mp hvalues)
    have ih := ih hnames hvalues (s := .beginLine) (by decide)
    have htext : mailText (field :: fields) body = fieldText field ++ mailText fields body := by
      simp [mailText]
    rw [htext, lines_field hname hvalue, ih]
    simp

theorem readHead_nil (body : List Char) : readHead ('\r' :: '\n' :: body) = some ([], body) := by
  rw [readHead]
  rfl

theorem readHead_line {line : List Char} (hne : line ≠ []) (hlf : '\n' ∉ line)
    (rest : List Char) : readHead (line ++ '\r' :: '\n' :: rest) =
      (readHead rest).map fun (head, body) => (line :: head, body) := by
  rw [readHead]
  split
  · next h => simp [readLine_append hlf] at h
  · next h =>
      rw [readLine_append hlf] at h
      exact absurd (Prod.mk.inj (Option.some.inj h)).1 hne
  · next h =>
      rw [readLine_append hlf] at h
      obtain ⟨rfl, rfl⟩ := Prod.mk.inj (Option.some.inj h)
      rfl

theorem readHead_flatMap {head : List (List Char)} (hne : [] ∉ head)
    (hlf : ∀ line ∈ head, '\n' ∉ line) (body : List Char) :
    readHead (head.flatMap (· ++ ['\r', '\n']) ++ '\r' :: '\n' :: body) = some (head, body) := by
  induction head with
  | nil => exact readHead_nil body
  | cons line head ih =>
    simp only [List.mem_cons, not_or] at hne
    have hread := readHead_line (Ne.symm hne.1) (hlf line (by simp))
      (head.flatMap (· ++ ['\r', '\n']) ++ '\r' :: '\n' :: body)
    rw [ih hne.2 fun l hl => hlf l (by simp [hl])] at hread
    simpa using hread

theorem unfoldLines_eq {head : List (List Char)}
    (h : ∀ line ∈ head, ∀ c ∈ line.head?, isBlank c = false) : unfoldLines head = head := by
  induction head with
  | nil => rfl
  | cons line head ih =>
    rw [unfoldLines, ih fun l hl => h l (by simp [hl])]
    split
    · next c cs fields =>
        have hc := h (c :: cs) (by simp) c (by simp)
        simp [hc]
    · rfl

theorem readField_readText {field : List Char × List Char} (hname : IsName field.1) :
    readField (readText field) = some (field.1, readValue field.2) := by
  have hcolon : ∀ c ∈ field.1, (c != ':') = true := by
    intro c hc
    simpa using fun heq : c = ':' => hname.no_colon (heq ▸ hc)
  simp [readField, readText, List.dropWhile_append_of_pos hcolon,
    List.takeWhile_append_of_pos hcolon]

theorem mapM_readField {fields : List (List Char × List Char)} (hnames : ∀ f ∈ fields, IsName f.1) :
    (fields.map readText).mapM readField = some (fields.map fun f => (f.1, readValue f.2)) := by
  induction fields with
  | nil => rfl
  | cons field fields ih =>
    obtain ⟨hname, hnames⟩ := List.forall_mem_cons.mp hnames
    simp [readField_readText hname, ih hnames]

theorem readText_line {field : List Char × List Char} (hname : IsName field.1)
    (hvalue : '\n' ∉ field.2) : readText field ≠ [] ∧ '\n' ∉ readText field ∧
      ∀ c ∈ (readText field).head?, isBlank c = false := by
  refine ⟨by simp [readText], ?_, ?_⟩
  · unfold readText readValue
    split <;> simp [hname.no_lf, hvalue]
  · intro c hc
    apply hname.no_blank c
    rwa [readText, List.head?_append_of_ne_nil _ hname.ne_nil] at hc

/-- **What is read of a mail** whose values have no line feed. -/
theorem readMail_mailText {fields : List (List Char × List Char)}
    (hnames : ∀ f ∈ fields, IsName f.1) (hvalues : ∀ f ∈ fields, '\n' ∉ f.2) {s : WriterState}
    (hs : s ≠ .cr) (body : List Char) : readMail (lines s (mailText fields body)) =
      some (fields.map fun f => (f.1, readValue f.2), lines .beginLine body) := by
  have hline := fun f hf => readText_line (hnames f hf) (hvalues f hf)
  have hhead : readHead (lines s (mailText fields body)) =
      some (fields.map readText, lines .beginLine body) := by
    rw [lines_mailText hnames hvalues hs]
    apply readHead_flatMap
    · intro hmem
      obtain ⟨f, hf, hnil⟩ := List.mem_map.mp hmem
      exact (hline f hf).1 hnil
    · exact List.forall_mem_map.mpr fun f hf => (hline f hf).2.1
  have hunfold : unfoldLines (fields.map readText) = fields.map readText :=
    unfoldLines_eq (List.forall_mem_map.mpr fun f hf => (hline f hf).2.2)
  simp [readMail, hhead, hunfold, mapM_readField hnames]

/-- Every line feed follows a carriage return; `afterCR` tells whether one stands before it all. -/
def Regular : Bool → List Char → Prop
  | _, [] => True
  | afterCR, c :: cs => (c = '\n' → afterCR = true) ∧ Regular (c == '\r') cs

theorem regular_lines {s : WriterState} {afterCR : Bool} (hs : s = .cr → afterCR = true)
    (text : List Char) : Regular afterCR (lines s text) := by
  induction text generalizing s afterCR with
  | nil => cases s <;> simp_all [lines, WriterState.close, Regular]
  | cons c cs ih =>
    rw [lines]
    by_cases hlf : c = '\n'
    · subst hlf
      have htail : Regular ('\n' == '\r') (lines (s.next '\n') cs) :=
        ih (by simp [WriterState.next])
      by_cases hcr : s = .cr
      · simpa [WriterState.lineEnd, hcr, Regular, hs] using htail
      · simpa [WriterState.lineEnd, hcr, Regular] using htail
    · have hnext : s.next c = .cr → (c == '\r') = true := by
        unfold WriterState.next
        split <;> simp_all
      simpa [WriterState.lineEnd, hlf, Regular] using ih hnext

theorem readLine_regular {afterCR : Bool} {text line rest : List Char}
    (h : Regular afterCR text) (hstart : afterCR = true → text.head? ≠ some '\n')
    (hread : readLine text = some (line, rest)) : '\n' ∉ line ∧ Regular false rest := by
  induction text using readLine.induct generalizing afterCR line with
  | case1 cs =>
    simp only [readLine, Option.some.injEq, Prod.mk.injEq] at hread
    obtain ⟨rfl, rfl⟩ := hread
    exact ⟨by simp, h.2.2⟩
  | case2 c cs hne ih =>
    rw [readLine] at hread
    · obtain ⟨tail, hcs, rfl⟩ := exists_of_prepend hread
      have hc : c ≠ '\n' := fun heq => hstart (h.1 heq) (by simp [heq])
      obtain ⟨htail, hrest⟩ := ih h.2
        (fun hcr hhead => by
          obtain ⟨cs', rfl⟩ := List.head?_eq_some_iff.mp hhead
          exact hne cs' (by simpa using hcr) rfl) hcs
      exact ⟨by simp [Ne.symm hc, htail], hrest⟩
    · exact hne
  | case3 => simp [readLine] at hread

theorem readHead_cases {text body : List Char} {head : List (List Char)}
    (h : readHead text = some (head, body)) :
    head = [] ∨ ∃ line rest tail, readLine text = some (line, rest) ∧
      readHead rest = some (tail, body) ∧ head = line :: tail := by
  rw [readHead] at h
  split at h
  · simp at h
  · exact .inl (Prod.mk.inj (Option.some.inj h)).1.symm
  · next c cs rest hline =>
      obtain ⟨⟨tail, body'⟩, htail, heq⟩ := Option.map_eq_some_iff.mp h
      obtain ⟨rfl, rfl⟩ := Prod.mk.inj heq
      exact .inr ⟨_, rest, tail, hline, htail, rfl⟩

theorem readHead_regular {text body : List Char} {head : List (List Char)}
    (h : Regular false text) (hread : readHead text = some (head, body)) :
    ∀ line ∈ head, '\n' ∉ line := by
  induction head generalizing text with
  | nil => simp
  | cons line head ih =>
    obtain hnil | ⟨line', rest, tail, hline, htail, heq⟩ := readHead_cases hread
    · simp at hnil
    · obtain ⟨rfl, rfl⟩ := List.cons.inj heq
      obtain ⟨hlf, hrest⟩ := readLine_regular h (by simp) hline
      exact List.forall_mem_cons.mpr ⟨hlf, ih hrest htail⟩

theorem unfoldLines_noLf {head : List (List Char)} (h : ∀ line ∈ head, '\n' ∉ line) :
    ∀ line ∈ unfoldLines head, '\n' ∉ line := by
  induction head with
  | nil => simp [unfoldLines]
  | cons line head ih =>
    obtain ⟨hline, hhead⟩ := List.forall_mem_cons.mp h
    have ih := ih hhead
    rw [unfoldLines]
    split
    · next c cs fields hfields =>
        rw [hfields] at ih
        obtain ⟨hfirst, hfields⟩ := List.forall_mem_cons.mp ih
        split
        · refine List.forall_mem_cons.mpr ⟨?_, hfields⟩
          simpa [hline] using hfirst
        · exact List.forall_mem_cons.mpr ⟨hline, ih⟩
    · exact List.forall_mem_cons.mpr ⟨hline, ih⟩

theorem readField_noLf {line name value : List Char} (h : '\n' ∉ line)
    (hread : readField line = some (name, value)) : '\n' ∉ value := by
  have hdrop : '\n' ∉ line.dropWhile (· != ':') :=
    fun hmem => h ((List.dropWhile_suffix _).subset hmem)
  unfold readField at hread
  split at hread
  · next hvalue =>
      obtain ⟨-, rfl⟩ := Prod.mk.inj (Option.some.inj hread)
      simp_all
  · next hvalue =>
      obtain ⟨-, rfl⟩ := Prod.mk.inj (Option.some.inj hread)
      simp_all
  · simp at hread

theorem mapM_readField_noLf {head : List (List Char)} (h : ∀ line ∈ head, '\n' ∉ line)
    {fields : List (List Char × List Char)} (hread : head.mapM readField = some fields) :
    ∀ f ∈ fields, '\n' ∉ f.2 := by
  induction head generalizing fields with
  | nil =>
    obtain rfl : fields = [] := by simpa using hread.symm
    simp
  | cons line head ih =>
    obtain ⟨hline, hhead⟩ := List.forall_mem_cons.mp h
    simp only [List.mapM_cons, Option.bind_eq_bind, Option.bind_eq_some_iff] at hread
    obtain ⟨field, hfield, fields', hfields, heq⟩ := hread
    obtain rfl := Option.some.inj heq
    exact List.forall_mem_cons.mpr ⟨readField_noLf hline hfield, ih hhead hfields⟩

theorem readMail_noLf {s : WriterState} (hs : s ≠ .cr) {text body : List Char}
    {fields : List (List Char × List Char)}
    (hread : readMail (lines s text) = some (fields, body)) : ∀ f ∈ fields, '\n' ∉ f.2 := by
  simp only [readMail, Option.bind_eq_bind, Option.bind_eq_some_iff] at hread
  obtain ⟨⟨head, body'⟩, hhead, fields', hfields, heq⟩ := hread
  obtain ⟨rfl, rfl⟩ := Prod.mk.inj (Option.some.inj heq)
  have hlines := readHead_regular (regular_lines (fun h => absurd h hs) text) hhead
  exact mapM_readField_noLf (unfoldLines_noLf hlines) hfields

/-- **A mail is read as it was meant** exactly if no value has a line feed, or a single carriage
return at its end. -/
theorem readMail_eq_iff {fields : List (List Char × List Char)}
    (hnames : ∀ f ∈ fields, IsName f.1) {s : WriterState} (hs : s ≠ .cr) (body : List Char) :
    readMail (lines s (mailText fields body)) = some (fields, lines .beginLine body) ↔
      ∀ f ∈ fields, '\n' ∉ f.2 ∧ WriterState.run .data f.2 ≠ .cr := by
  constructor
  · intro h
    have hvalues := readMail_noLf hs h
    rw [readMail_mailText hnames hvalues hs] at h
    have hmap : fields.map (fun f => (f.1, readValue f.2)) = fields := by simpa using h
    intro f hf
    refine ⟨hvalues f hf, fun hcr => ?_⟩
    have hf' : (f.1, readValue f.2) = id f :=
      List.map_inj_left.mp (hmap.trans fields.map_id.symm) f hf
    have hlength := congrArg (fun g : List Char × List Char => g.2.length) hf'
    simp [readValue, hcr] at hlength
  · intro h
    have hvalues : ∀ f ∈ fields, readValue f.2 = f.2 := fun f hf => if_neg (h f hf).2
    rw [readMail_mailText hnames (fun f hf => (h f hf).1) hs]
    have hmap : fields.map (fun f => (f.1, readValue f.2)) = fields.map id :=
      List.map_congr_left fun f hf => by rw [hvalues f hf]; rfl
    rw [hmap, List.map_id]

end Lib.Mail
