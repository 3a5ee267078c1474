import NotificationPlatform.AdminLists
import NotificationPlatform.JsonReader
import NotificationPlatform.Lib.JsonTemplates
import NotificationPlatform.System
import NotificationPlatform.TenantReads

/-!
# The generic SMS gateway

`sms.HTTPProvider` posts a JSON object to a gateway. A body pattern is filled as a text, one
placeholder after the other, before it is decoded, and a text that cannot be decoded leaves an empty
object without an error. The body is the object of the pattern with its strings filled as long as
what is put in needs no escapes and makes no placeholders, and the numbers of the pattern survive a
`float64`.
-/

namespace NotificationPlatform

open Lib Lib.JsonText Lib.Template

structure HTTPConfig where
  url : String
  method : String
  headers : List (String × String)
  phoneKey : String
  messageKey : String
  bodyPattern : String
  token : String
  tokenHeader : String
  successCodes : List Nat
  timeout : Nat

/-- `providers.Message`, as far as the gateway reads it. -/
structure SmsMessage where
  recipient : String
  body : String
  data : JsonMap

structure SmsRequest where
  method : String
  url : String
  headers : List (String × String)
  body : Json

/-- What becomes of a request: whether it can be built, and the status of the answer, if there is
one, or the error. -/
structure GatewayEnv where
  buildError : Option String
  answer : Except String Nat
  now : Nat

/-- What `Send` has posted, and what it returns. -/
structure SmsOutcome where
  posted : Option SmsRequest
  result : Except String ProviderResult

/-- `headers[key] = value`, and `Header.Set` for a name in canonical form. -/
def setHeader : List (String × String) → String → String → List (String × String)
  | [], key, value => [(key, value)]
  | header :: rest, key, value =>
      if header.1 = key then (key, value) :: rest else header :: setHeader rest key value

def newHTTP (cfg : HTTPConfig) : HTTPConfig :=
  { cfg with
    timeout := if cfg.timeout = 0 then 30 else cfg.timeout
    method := if cfg.method = "" then "POST" else cfg.method
    phoneKey := if cfg.phoneKey = "" then "phone" else cfg.phoneKey
    messageKey := if cfg.messageKey = "" then "message" else cfg.messageKey
    successCodes := if cfg.successCodes = [] then [200, 201, 202] else cfg.successCodes
    headers :=
      if cfg.headers.any fun header => header.1 == "Content-Type" then cfg.headers
      else setHeader cfg.headers "Content-Type" "application/json" }

/-- The text of a message: its body, or a text under `body` in its data. -/
def SmsMessage.text (m : SmsMessage) : String :=
  if m.body ≠ "" then m.body
  else
    match m.data.get? "body" with
    | some (.str body) => body
    | _ => ""

namespace HTTPConfig

variable (x : Texts) (cfg : HTTPConfig)

/-- `bodyMap`: the decoded pattern, or the two fields of a request without a pattern. A pattern
that cannot be decoded leaves the map as it was. -/
def bodyMap (phone message : String) : Json :=
  if contains cfg.bodyPattern "\x7b\x7bphone\x7d\x7d" ||
      contains cfg.bodyPattern "\x7b\x7bmessage\x7d\x7d" then
    let pattern := replaceAll cfg.bodyPattern "\x7b\x7bphone\x7d\x7d" phone
    let pattern := replaceAll pattern "\x7b\x7bmessage\x7d\x7d" message
    match readJson floatValue pattern with
    | some (.obj fields) => .obj fields
    | some .null => .null
    | _ => .obj []
  else
    .obj ((JsonMap.empty.set cfg.phoneKey (.str phone)).set cfg.messageKey (.str message)).fields

def requestHeaders : List (String × String) :=
  let headers := cfg.headers.foldl (fun hs header => setHeader hs header.1 header.2) []
  if cfg.token = "" then headers
  else
    let name := if cfg.tokenHeader = "" then "Authorization" else cfg.tokenHeader
    if hasPrefix (x.lowerText name) "bearer" || hasPrefix (x.lowerText name) "token" then
      setHeader headers name cfg.token
    else setHeader headers name ("Bearer " ++ cfg.token)

def send (env : GatewayEnv) (m : SmsMessage) : SmsOutcome :=
  let body := cfg.bodyMap m.recipient m.text
  match env.buildError with
  | some error => ⟨none, .error error⟩
  | none =>
      let request : SmsRequest := ⟨cfg.method, cfg.url, cfg.requestHeaders x, body⟩
      match env.answer with
      | .error error => ⟨some request, .error error⟩
      | .ok status =>
          if cfg.successCodes.contains status then
            ⟨some request, .ok ⟨"httpsms_" ++ toString env.now,
              .obj [("provider", .str "http_sms"), ("status", .num status)]⟩⟩
          else ⟨some request, .error ("http sms unexpected status: " ++ toString status)⟩

/-- The request can be built, and its answer counts as a success. -/
def accepts (env : GatewayEnv) : Bool :=
  match env.buildError, env.answer with
  | none, .ok status => cfg.successCodes.contains status
  | _, _ => false

end HTTPConfig

inductive SmsHole where
  | phone
  | message
  deriving DecidableEq, Repr

namespace SmsHole

def holes : List SmsHole := [.phone, .message]

def text : SmsHole → String
  | .phone => "\x7b\x7bphone\x7d\x7d"
  | .message => "\x7b\x7bmessage\x7d\x7d"

def name (i : SmsHole) : List Char := i.text.toList

def value (phone message : String) : SmsHole → List Char
  | .phone => phone.toList
  | .message => message.toList

theorem mem_holes (i : SmsHole) : i ∈ holes := by
  cases i <;> simp [holes]

theorem isName (i : SmsHole) : IsName i.name := by
  cases i with
  | phone => exact ⟨"phone".toList, rfl, by simp, by simp [isAtomChar], by decide⟩
  | message => exact ⟨"message".toList, rfl, by simp, by simp [isAtomChar], by decide⟩

theorem name_injective : Function.Injective name := by
  intro i j h
  cases i <;> cases j <;> first
    | rfl
    | simp [name, text] at h

end SmsHole

/-- A string with its placeholders filled, both at once. -/
def fillString (phone message : String) (s : String) : String :=
  String.ofList (fill (SmsHole.value phone message) (pieces SmsHole.name SmsHole.holes s.toList))

def patternTokens (pattern : String) : Option (List (Token (List (Piece SmsHole)))) :=
  tokens (readPiece SmsHole.name SmsHole.holes) pattern.toList

/-- The placeholders of the values are spelled out as they are read, and the keys have none. -/
inductive SpelledOut : List (Token (List (Piece SmsHole))) → Prop
  | nil : SpelledOut []
  | key {ps : List (Piece SmsHole)} {ts : List (Token (List (Piece SmsHole)))}
      (hkey : ∀ i, .hole i ∉ ps) (hrest : SpelledOut ts) : SpelledOut (.str ps :: .colon :: ts)
  | str {ps : List (Piece SmsHole)} {ts : List (Token (List (Piece SmsHole)))}
      (hvalue : ts.head? ≠ some .colon)
      (hps : pieces SmsHole.name SmsHole.holes (fill SmsHole.name ps) = ps)
      (hrest : SpelledOut ts) : SpelledOut (.str ps :: ts)
  | other {t : Token (List (Piece SmsHole))} {ts : List (Token (List (Piece SmsHole)))}
      (hother : ∀ ps, t ≠ .str ps) (hrest : SpelledOut ts) : SpelledOut (t :: ts)

/-- What is put into a pattern is data there: it needs no escapes and leaves no half of a surrogate
pair to be joined, the phone number makes no placeholder for the message, and the placeholders of
the pattern stand in the values as they are read. -/
structure FillsAsData (pattern phone message : String) : Prop where
  fits : Fits SmsHole.name (SmsHole.value phone message) SmsHole.holes pattern.toList
  order : pieces SmsHole.name [.message]
      (replaceAll pattern SmsHole.phone.text phone).toList =
    (pieces SmsHole.name SmsHole.holes pattern.toList).flatMap (Piece.spell .phone phone.toList)
  spelledOut : ∀ ts, patternTokens pattern = some ts → SpelledOut ts

/-- The numbers of a pattern are posted as they are written. -/
def KeepsNumbers (pattern : String) : Prop :=
  ∀ ts, patternTokens pattern = some ts → ∀ text, .atom text ∈ ts →
    floatValue (String.ofList text) = writtenValue (String.ofList text)

/-- A pattern whose numbers are natural and below `2 ^ 53` is posted with them as written. -/
theorem keepsNumbers_of_natCast {pattern : String} (h : ∀ ts, patternTokens pattern = some ts →
    ∀ text, .atom text ∈ ts → ∀ q, writtenValue (String.ofList text) = some q →
      ∃ n : Nat, n < 2 ^ 53 ∧ q = n) : KeepsNumbers pattern := by
  intro ts hts text htext
  cases hwritten : writtenValue (String.ofList text) with
  | none => simp [floatValue, hwritten]
  | some q =>
      obtain ⟨n, hn, rfl⟩ := h ts hts text htext q hwritten
      exact floatValue_natCast hn hwritten

section

variable {number number' : String → Option Rat} {pattern phone message : String} {j : Json}

theorem FillsAsData.replaceAll_eq (h : FillsAsData pattern phone message) :
    (replaceAll (replaceAll pattern SmsHole.phone.text phone) SmsHole.message.text message).toList =
      filled SmsHole.name (SmsHole.value phone message) SmsHole.holes pattern.toList := by
  have hsingle := fill_pieces_singleton SmsHole.name .message message.toList
    (replaceAll pattern SmsHole.phone.text phone).toList
  have hspell : fill (fun _ => message.toList) ((pieces SmsHole.name SmsHole.holes
      pattern.toList).flatMap (Piece.spell .phone (SmsHole.value phone message .phone))) =
        filled SmsHole.name (SmsHole.value phone message) SmsHole.holes pattern.toList := by
    apply fill_spell
    intro j hj
    cases j with
    | phone => exact absurd rfl hj
    | message => rfl
  rw [h.order] at hsingle
  rw [replaceAll, String.toList_ofList]
  exact hsingle.trans hspell

theorem SpelledOut.refilled {ts : List (Token (List (Piece SmsHole)))} (h : SpelledOut ts)
    (phone message : String)
    (hnumbers : ∀ text, .atom text ∈ ts →
      number (String.ofList text) = number' (String.ofList text)) :
    Refilled (fillString phone message) number number'
      ((ts.map (Token.map (fill SmsHole.name))).map (Token.map String.ofList))
      ((ts.map (Token.map (fill (SmsHole.value phone message)))).map
        (Token.map String.ofList)) := by
  induction h with
  | nil => exact .nil
  | @key ps ts hkey hrest ih =>
      have hsame : fill (SmsHole.value phone message) ps = fill SmsHole.name ps :=
        fill_of_no_holes hkey
      simp only [List.map_cons, Token.map, hsame]
      exact .key _ (ih fun text htext => hnumbers text (by simp [htext]))
  | @str ps ts hvalue hps hrest ih =>
      have hstring : String.ofList (fill (SmsHole.value phone message) ps) =
          fillString phone message (String.ofList (fill SmsHole.name ps)) := by
        rw [fillString, String.toList_ofList, hps]
      simp only [List.map_cons, Token.map, hstring]
      apply Refilled.str _ _ (ih fun text htext => hnumbers text (by simp [htext]))
      cases ts with
      | nil => nofun
      | cons t ts =>
          intro hcolon
          cases t <;> simp_all [Token.map]
  | @other t ts hother hrest ih =>
      have hsame : (t.map (fill (SmsHole.value phone message))).map String.ofList =
          (t.map (fill SmsHole.name)).map String.ofList := by
        cases t <;> first
          | rfl
          | exact absurd rfl (hother _)
      simp only [List.map_cons, hsame]
      apply Refilled.other _ _ (ih fun text htext => hnumbers text (by simp [htext]))
      · intro s hs
        cases t <;> simp_all [Token.map]
      · intro text htext
        apply hnumbers text
        cases t <;> simp_all [Token.map]

theorem FillsAsData.readJson_eq (h : FillsAsData pattern phone message)
    (hnumbers : ∀ ts, patternTokens pattern = some ts → ∀ text, .atom text ∈ ts →
      number (String.ofList text) = number' (String.ofList text))
    (hread : readJson number pattern = some j) :
    readJson number'
        (replaceAll (replaceAll pattern SmsHole.phone.text phone) SmsHole.message.text message) =
      some (j.mapStrings (fillString phone message)) := by
  obtain ⟨ts, htokens, hparse⟩ := Option.bind_eq_some_iff.mp hread
  obtain ⟨ts', htemplate, rfl⟩ := exists_template SmsHole.isName htokens
  have hfilled := tokens_filled SmsHole.isName htemplate h.fits
  have hrefilled := (h.spelledOut ts' htemplate).refilled phone message (hnumbers ts' htemplate)
  have hjson := parseJson_refilled hrefilled hparse
  rw [readJson, h.replaceAll_eq, hfilled]
  exact hjson

theorem infix_fillString {s : String} {i : SmsHole} (h : contains s i.text = true) :
    SmsHole.value phone message i <:+: (fillString phone message s).toList := by
  have hhole := hole_mem_pieces SmsHole.isName SmsHole.name_injective i.mem_holes
    (contains_iff.mp h)
  rw [fillString, String.toList_ofList]
  exact infix_fill hhole

/-- A placeholder in a string of the value stands in the text of the pattern: without placeholders
the text would be read as the same value whatever is put in. -/
theorem contains_of_strings (hspelled : ∀ ts, patternTokens pattern = some ts → SpelledOut ts)
    (hread : readJson number pattern = some j) {s : String} (hs : s ∈ j.strings) {i : SmsHole}
    (hi : contains s i.text = true) : ∃ i : SmsHole, contains pattern i.text = true := by
  by_contra hnone
  obtain ⟨ts, htokens, hparse⟩ := Option.bind_eq_some_iff.mp hread
  obtain ⟨ts', htemplate, rfl⟩ := exists_template SmsHole.isName htokens
  have hholes : ∀ ps, .str ps ∈ ts' → ∀ i, .hole i ∉ ps := by
    intro ps hps i hi
    exact hnone ⟨i, contains_iff.mpr (infix_of_hole SmsHole.isName htemplate hps hi)⟩
  have hself : ∀ phone message, j.mapStrings (fillString phone message) = j := by
    intro phone message
    have hsame : ts'.map (Token.map (fill (SmsHole.value phone message))) =
        ts'.map (Token.map (fill SmsHole.name)) := by
      apply List.map_congr_left
      intro t ht
      cases t with
      | str ps => rw [Token.map, Token.map, fill_of_no_holes (hholes ps ht)]
      | _ => rfl
    have hrefilled := (hspelled ts' htemplate).refilled phone message
      (fun text _ => (rfl : number (String.ofList text) = _))
    rw [hsame] at hrefilled
    have hjson := parseJson_refilled hrefilled hparse
    rw [hparse] at hjson
    exact (Option.some.inj hjson).symm
  have hfill : fillString (s ++ "x") (s ++ "x") s = s := by
    have hstrings := Json.strings_mapStrings (f := fillString (s ++ "x") (s ++ "x")) j
    rw [hself] at hstrings
    have hmap : j.strings.map (fillString (s ++ "x") (s ++ "x")) = j.strings.map id := by
      rw [← hstrings, List.map_id]
    exact List.map_inj_left.mp hmap s hs
  have hinfix : SmsHole.value (s ++ "x") (s ++ "x") i <:+:
      (fillString (s ++ "x") (s ++ "x") s).toList := infix_fillString hi
  have hlength := hinfix.length_le
  have hlonger : (s ++ "x").toList.length = s.toList.length + 1 := by
    rw [String.toList_append, List.length_append]
    rfl
  rw [hfill] at hlength
  cases i <;> (rw [SmsHole.value, hlonger] at hlength; omega)

end

/-- What becomes of a message: what is posted is the expected body, and a success is returned only
when the message stands in it. -/
structure SendsMessage (outcome : SmsOutcome) (expected : Json) (message : String) : Prop where
  body : ∀ request, outcome.posted = some request → request.body = expected
  message : ∀ result, outcome.result = .ok result → ∃ request, outcome.posted = some request ∧
    ∃ s ∈ request.body.strings, contains s message = true

namespace HTTPConfig

variable {x : Texts} {cfg : HTTPConfig} {env : GatewayEnv} {m : SmsMessage}

theorem bodyMap_eq {fields : List (String × Json)} {phone message : String}
    (hread : readJson writtenValue cfg.bodyPattern = some (.obj fields))
    (hplaced : ∃ s ∈ (Json.obj fields).strings, ∃ i : SmsHole, contains s i.text = true)
    (hfill : FillsAsData cfg.bodyPattern phone message) (hnumbers : KeepsNumbers cfg.bodyPattern) :
    cfg.bodyMap phone message =
      (Json.obj fields).mapStrings (fillString phone message) := by
  obtain ⟨s, hs, i, hi⟩ := hplaced
  have hpattern : (contains cfg.bodyPattern SmsHole.phone.text ||
      contains cfg.bodyPattern SmsHole.message.text) = true := by
    obtain ⟨k, hk⟩ := contains_of_strings hfill.spelledOut hread hs hi
    cases k with
    | phone => rw [hk, Bool.true_or]
    | message => rw [hk, Bool.or_true]
  have hjson := hfill.readJson_eq (fun ts hts text htext => (hnumbers ts hts text htext).symm) hread
  rw [Json.mapStrings] at hjson ⊢
  simp only [SmsHole.text] at hpattern hjson
  simp only [bodyMap, if_pos hpattern, hjson]

theorem posted_eq {request : SmsRequest} (h : (cfg.send x env m).posted = some request) :
    request.body = cfg.bodyMap m.recipient m.text := by
  unfold send at h
  dsimp only at h
  split at h
  · simp at h
  · split at h
    · obtain rfl := Option.some.inj h
      rfl
    · split at h <;> (obtain rfl := Option.some.inj h; rfl)

theorem accepts_of_ok {result : ProviderResult}
    (h : (cfg.send x env m).result = .ok result) :
    cfg.accepts env = true ∧ ∃ request, (cfg.send x env m).posted = some request := by
  cases hbuild : env.buildError with
  | some error => simp [send, hbuild] at h
  | none =>
      cases hanswer : env.answer with
      | error error => simp [send, hbuild, hanswer] at h
      | ok status =>
          by_cases hcode : cfg.successCodes.contains status = true
          · simp only [accepts, send, hbuild, hanswer, hcode, if_true]
            exact ⟨trivial, _, rfl⟩
          · simp only [send, hbuild, hanswer, hcode] at h
            simp at h

end HTTPConfig

/-- The pattern's object is posted with its strings filled, and a success means that the message
stands in it, as long as what is put in stays data, the numbers of the pattern survive a `float64` and
no pattern without the message is accepted. -/
theorem pattern_filled_as_data (x : Texts) (cfg : HTTPConfig) (env : GatewayEnv) (m : SmsMessage)
    (fields : List (String × Json))
    (hread : readJson writtenValue cfg.bodyPattern = some (.obj fields))
    (hplaced : ∃ s ∈ (Json.obj fields).strings, ∃ i : SmsHole, contains s i.text = true)
    (hfill : FillsAsData cfg.bodyPattern m.recipient m.text)
    (hnumbers : KeepsNumbers cfg.bodyPattern)
    (hmessage : cfg.accepts env = true →
      ∃ s ∈ (Json.obj fields).strings, contains s SmsHole.message.text = true) :
    SendsMessage (cfg.send x env m)
      ((Json.obj fields).mapStrings (fillString m.recipient m.text)) m.text := by
  have hbody := HTTPConfig.bodyMap_eq hread hplaced hfill hnumbers
  constructor
  · intro request hrequest
    rw [HTTPConfig.posted_eq hrequest, hbody]
  · intro result hresult
    obtain ⟨haccepts, request, hrequest⟩ := HTTPConfig.accepts_of_ok hresult
    obtain ⟨s, hs, hplace⟩ := hmessage haccepts
    have hfilled : fillString m.recipient m.text s ∈ request.body.strings := by
      rw [HTTPConfig.posted_eq hrequest, hbody, Json.strings_mapStrings]
      exact List.mem_map_of_mem hs
    exact ⟨request, hrequest, _, hfilled, contains_iff.mpr (infix_fillString hplace)⟩

def sampleGateway : HTTPConfig where
  url := "https://api.sms-gateway.com/send"
  method := "POST"
  headers := []
  phoneKey := "phone"
  messageKey := "message"
  bodyPattern := "\x7b\"phone\":\"\x7b\x7bphone\x7d\x7d\",\"text\":\"\x7b\x7bmessage\x7d\x7d\"\x7d"
  token := "api-token-here"
  tokenHeader := "Authorization"
  successCodes := []
  timeout := 30

def sampleFields : List (String × Json) :=
  [("phone", .str SmsHole.phone.text), ("text", .str SmsHole.message.text)]

def sampleMessage (text : String) : SmsMessage := ⟨"9841000000", text, JsonMap.empty⟩

def acceptingGateway : GatewayEnv := ⟨none, .ok 200, 0⟩

private def sampleTokens : List (Token (List (Piece SmsHole))) :=
  [.lbrace, .str ("phone".toList.map .char), .colon, .str [.hole .phone], .comma,
    .str ("text".toList.map .char), .colon, .str [.hole .message], .rbrace]

private theorem patternTokens_sample :
    patternTokens sampleGateway.bodyPattern = some sampleTokens := rfl

private theorem parseJson_two_strings (number : String → Option Rat) (s s' : String) :
    parseJson number [.lbrace, .str "phone", .colon, .str s, .comma, .str "text", .colon,
      .str s', .rbrace] = some (.obj [("phone", .str s), ("text", .str s')]) := by
  simp [parseJson, parseValue, parseFields, JsonMap.setAll, JsonMap.set, JsonMap.empty, setField]

private theorem readJson_sample (number : String → Option Rat) :
    readJson number sampleGateway.bodyPattern = some (.obj sampleFields) := by
  have htokens : tokens readChar sampleGateway.bodyPattern.toList =
      some (sampleTokens.map (Token.map (fill SmsHole.name))) := rfl
  have hparse := parseJson_two_strings number SmsHole.phone.text SmsHole.message.text
  rw [readJson, htokens, sampleFields, ← hparse]
  simp [sampleTokens, Token.map, SmsHole.name, Piece.text]

private theorem sampleFields_placed (i : SmsHole) :
    ∃ s ∈ (Json.obj sampleFields).strings, contains s i.text = true := by
  refine ⟨i.text, ?_, contains_iff.mpr (List.infix_refl _)⟩
  cases i <;> simp [sampleFields, Json.strings, Json.fieldStrings]

private theorem fillsAsData_sample :
    FillsAsData sampleGateway.bodyPattern "9841000000" "Hello" := by
  constructor
  · constructor
    · intro i _ _
      cases i <;> simp [SmsHole.value, isPlain]
    · rintro s - ⟨_, _, _, i, -, -, -, -, -, hempty⟩
      cases i <;> simp [SmsHole.value] at hempty
  · rw [replaceAll, String.toList_ofList]
    rfl
  · intro ts hts
    obtain rfl := Option.some.inj (patternTokens_sample.symm.trans hts)
    apply SpelledOut.other (by simp)
    apply SpelledOut.key (by simp)
    apply SpelledOut.str (by simp) rfl
    apply SpelledOut.other (by simp)
    apply SpelledOut.key (by simp)
    apply SpelledOut.str (by simp) rfl
    exact SpelledOut.other (by simp) .nil

private theorem keepsNumbers_sample : KeepsNumbers sampleGateway.bodyPattern := by
  intro ts hts text htext
  obtain rfl := Option.some.inj (patternTokens_sample.symm.trans hts)
  simp [sampleTokens] at htext

theorem pattern_filled_as_data_greeting :
    SendsMessage ((newHTTP sampleGateway).send sampleTexts acceptingGateway (sampleMessage "Hello"))
      ((Json.obj sampleFields).mapStrings (fillString "9841000000" "Hello")) "Hello" :=
  pattern_filled_as_data sampleTexts (newHTTP sampleGateway) acceptingGateway
    (sampleMessage "Hello") sampleFields (readJson_sample _)
    (by
      obtain ⟨s, hs, hplace⟩ := sampleFields_placed .phone
      exact ⟨s, hs, .phone, hplace⟩)
    fillsAsData_sample keepsNumbers_sample fun _ => sampleFields_placed .message

/-- A message with quotes breaks out of its literal: the filled pattern cannot be read, an empty
object is posted, and the message counts as sent. -/
theorem quoted_message_lost : ¬∀ (x : Texts) (cfg : HTTPConfig) (env : GatewayEnv) (m : SmsMessage)
    (fields : List (String × Json)),
    readJson writtenValue cfg.bodyPattern = some (.obj fields) →
    (∃ s ∈ (Json.obj fields).strings, ∃ i : SmsHole, contains s i.text = true) →
    SendsMessage ((newHTTP cfg).send x env m)
      ((Json.obj fields).mapStrings (fillString m.recipient m.text)) m.text := by
  intro h
  let message := "Hi \"Bob\""
  obtain ⟨s, hs, hplace⟩ := sampleFields_placed .phone
  have hsends := h sampleTexts sampleGateway acceptingGateway
    (sampleMessage message) sampleFields (readJson_sample _) ⟨s, hs, .phone, hplace⟩
  have hunread : readJson floatValue (replaceAll (replaceAll sampleGateway.bodyPattern
      SmsHole.phone.text "9841000000") SmsHole.message.text message) = none := by
    have htokens : tokens readChar (replaceAll (replaceAll sampleGateway.bodyPattern
        SmsHole.phone.text "9841000000") SmsHole.message.text message).toList = none := by
      rw [replaceAll, String.toList_ofList, replaceAll, String.toList_ofList]
      rfl
    rw [readJson, htokens]
    rfl
  have hbody : (newHTTP sampleGateway).bodyMap "9841000000" message = .obj [] := by
    have hpattern : (contains sampleGateway.bodyPattern SmsHole.phone.text ||
        contains sampleGateway.bodyPattern SmsHole.message.text) = true := by
      decide
    simp only [SmsHole.text] at hpattern hunread
    simp only [HTTPConfig.bodyMap, newHTTP, if_pos hpattern, hunread]
  obtain ⟨request, hrequest, s', hs', -⟩ := hsends.message _ rfl
  have hempty := HTTPConfig.posted_eq hrequest
  rw [show (sampleMessage message).recipient = "9841000000" from rfl,
    show (sampleMessage message).text = message from rfl, hbody] at hempty
  rw [hempty] at hs'
  simp [Json.strings, Json.fieldStrings] at hs'

end NotificationPlatform
