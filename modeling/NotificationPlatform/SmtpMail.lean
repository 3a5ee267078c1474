import NotificationPlatform.Delivery
import NotificationPlatform.Lib.Calendar
import NotificationPlatform.Lib.MailText

/-!
# Mails

`email.SMTPProvider` writes a message as six fields and a body, in the order in which a map is
ranged over, and hands it to `smtp.SendMail`. The opening of the connection, up to the first `MAIL`,
is taken as it comes: it succeeds or not, and tells which extensions the server has.
-/

namespace NotificationPlatform

open Lib Lib.Mail

/-- `email.SMTPConfig`, as far as a mail depends on it. -/
structure SMTPConfig where
  host : String
  /-- `From` -/
  sender : String

/-- `providers.Message`, as far as `Send` reads it. -/
structure EmailMessage where
  recipient : String
  subject : String
  body : String

/-- What `handle` sends: it sets no subject and no body. -/
def ProviderMessage.email (m : ProviderMessage) : EmailMessage := ⟨m.recipient, "", ""⟩

/-- The extensions of a server that `Client.Mail` asks for. -/
structure MailExtensions where
  eightBitMIME : Bool
  smtpUTF8 : Bool

/-- What `Send` meets: the time in seconds, and in nanoseconds when it is done, the order in which
a map is ranged over, and a server that refuses the opening, or some of what follows. -/
structure MailEnv where
  now : Nat
  sentAt : Nat
  range : List (String × String) → List (String × String)
  range_perm : ∀ header, (range header).Perm header
  opening : Except String MailExtensions
  refusal : Nat → Option String

def MailEnv.accepts (env : MailEnv) (n : Nat) : Bool := (env.refusal n).isNone

/-- What `Send` has said after the opening, and what it returns. -/
structure MailOutcome where
  said : List Item
  result : Except String ProviderResult

def validateLine (line : String) : Bool :=
  !line.toList.contains '\n' && !line.toList.contains '\r'

namespace SMTPConfig

variable (cfg : SMTPConfig) (env : MailEnv) (m : EmailMessage)

def subject : String := if m.subject = "" then "Notification" else m.subject

def body : String := if m.body = "" then m.recipient else m.body

def header : List (String × String) :=
  [("From", cfg.sender),
   ("To", m.recipient),
   ("Subject", subject m),
   ("MIME-Version", "1.0"),
   ("Content-Type", "text/plain; charset=\"utf-8\""),
   ("Date", String.ofList (Calendar.rfc1123z env.now))]

def fields : List (List Char × List Char) :=
  (env.range (cfg.header env m)).map fun field => (field.1.toList, field.2.toList)

def message : List Char := mailText (cfg.fields env m) (body m).toList

def session (ext : MailExtensions) : List Item :=
  [.command (("MAIL FROM:<" ++ cfg.sender ++ ">" ++
      (if ext.eightBitMIME then " BODY=8BITMIME" else "") ++
      (if ext.smtpUTF8 then " SMTPUTF8" else "")).toList),
   .command ("RCPT TO:<" ++ m.recipient ++ ">").toList,
   .command "DATA".toList,
   .mail (cfg.message env m),
   .command "QUIT".toList]

def send : MailOutcome :=
  if !validateLine cfg.sender || !validateLine m.recipient then
    ⟨[], .error "smtp: A line must not contain CR or LF"⟩
  else
    match env.opening with
    | .error error => ⟨[], .error error⟩
    | .ok ext =>
        let session := cfg.session env m ext
        ⟨said env.accepts 0 session,
          match (List.range session.length).findSome? env.refusal with
          | some error => .error error
          | none => .ok ⟨"smtp_" ++ toString env.sentAt,
              .obj [("host", .str cfg.host), ("provider", .str "smtp")]⟩⟩

/-! ## What the server reads -/

variable {cfg : SMTPConfig} {env : MailEnv} {m : EmailMessage}

/-- What the server reads of all that `Send` writes. -/
def served (cfg : SMTPConfig) (env : MailEnv) (m : EmailMessage) : List Item :=
  readSession env.accepts 0 false ((cfg.send env m).said.flatMap Item.written)

theorem validateLine_eq {line : String} (h : validateLine line = true) :
    '\n' ∉ line.toList ∧ '\r' ∉ line.toList := by
  simpa [validateLine] using h

theorem wellFormed_session (hsender : validateLine cfg.sender = true)
    (hrecipient : validateLine m.recipient = true) (ext : MailExtensions) :
    WellFormed false (cfg.session env m ext) := by
  obtain ⟨hsender, -⟩ := validateLine_eq hsender
  obtain ⟨hrecipient, -⟩ := validateLine_eq hrecipient
  have hrcpt : isData ("RCPT TO:<" ++ m.recipient ++ ">").toList = false := by simp [isData]
  have hdata : isData "DATA".toList = true := by decide
  refine ⟨rfl, ?_, ?_, ?_, ?_⟩
  · simp only [String.toList_append, List.mem_append, not_or]
    refine ⟨⟨⟨⟨by decide, hsender⟩, by decide⟩, ?_⟩, ?_⟩ <;> split <;> decide
  · simp [isData]
  · simp [hrecipient]
  · rw [hrcpt]
    refine ⟨rfl, by decide, ?_⟩
    rw [hdata]
    exact ⟨rfl, rfl, by decide, trivial⟩

/-- Either nothing is said, or a session up to the first refusal, between clean addresses; all of
it where `Send` returns no error. -/
theorem send_cases (cfg : SMTPConfig) (env : MailEnv) (m : EmailMessage) :
    (cfg.send env m).said = [] ∧ (∃ error, (cfg.send env m).result = .error error) ∨
      ∃ ext, env.opening = .ok ext ∧
        validateLine cfg.sender = true ∧ validateLine m.recipient = true ∧
        (cfg.send env m).said = said env.accepts 0 (cfg.session env m ext) ∧
        (∀ result, (cfg.send env m).result = .ok result →
          said env.accepts 0 (cfg.session env m ext) = cfg.session env m ext) := by
  unfold send
  split
  · exact .inl ⟨rfl, _, rfl⟩
  · next hclean =>
      simp only [Bool.or_eq_true, Bool.not_eq_true', not_or, Bool.not_eq_false] at hclean
      split
      · exact .inl ⟨rfl, _, rfl⟩
      · next ext hext =>
          refine .inr ⟨ext, hext, hclean.1, hclean.2, rfl, ?_⟩
          intro result hresult
          apply said_eq
          intro k hk
          dsimp only at hresult
          split at hresult
          · simp at hresult
          · next hnone =>
              rw [List.findSome?_eq_none_iff] at hnone
              simp [MailEnv.accepts, hnone k (List.mem_range.mpr hk)]

def CleanSubject (m : EmailMessage) : Prop :=
  '\n' ∉ (subject m).toList ∧ WriterState.run .data (subject m).toList ≠ .cr

theorem isName_fields : ∀ f ∈ cfg.fields env m, IsName f.1 := by
  have hname : ∀ name ∈ ["From", "To", "Subject", "MIME-Version", "Content-Type", "Date"],
      IsName name.toList := by
    simp only [List.forall_mem_cons]
    refine ⟨?_, ?_, ?_, ?_, ?_, ?_, by simp⟩ <;>
      exact ⟨by decide, by decide, by decide, by simp [isBlank]⟩
  simp only [fields, List.forall_mem_map, (env.range_perm _).mem_iff]
  simpa [header] using hname

theorem date_oneLine : '\n' ∉ (String.ofList (Calendar.rfc1123z env.now)).toList ∧
    '\r' ∉ (String.ofList (Calendar.rfc1123z env.now)).toList := by
  have hprintable := Calendar.rfc1123z_printable env.now
  rw [String.toList_ofList]
  exact ⟨fun h => absurd (hprintable _ h) (by decide),
    fun h => absurd (hprintable _ h) (by decide)⟩

theorem readMail_message_iff (hsender : validateLine cfg.sender = true)
    (hrecipient : validateLine m.recipient = true) :
    readMail (lines .begin (cfg.message env m)) =
        some (cfg.fields env m, lines .beginLine (body m).toList) ↔ CleanSubject m := by
  have hline : ∀ {text : List Char}, '\n' ∉ text ∧ '\r' ∉ text →
      '\n' ∉ text ∧ WriterState.run .data text ≠ .cr :=
    fun h => ⟨h.1, run_ne_cr (by decide) h.2⟩
  rw [message, readMail_eq_iff isName_fields (by decide)]
  simp only [fields, List.forall_mem_map, (env.range_perm _).mem_iff, header, List.forall_mem_cons]
  constructor
  · intro h
    exact h.2.2.1
  · intro h
    exact ⟨hline (validateLine_eq hsender), hline (validateLine_eq hrecipient), h,
      hline (by decide), hline (by decide), hline date_oneLine, by simp⟩

theorem served_eq (hsender : validateLine cfg.sender = true)
    (hrecipient : validateLine m.recipient = true) {ext : MailExtensions}
    (h : (cfg.send env m).said = said env.accepts 0 (cfg.session env m ext)) :
    cfg.served env m = (said env.accepts 0 (cfg.session env m ext)).map Item.received := by
  rw [served, h, readSession_said env.accepts 0 (wellFormed_session hsender hrecipient ext)]

theorem eq_of_mail_served {text : List Char} (h : .mail text ∈ cfg.served env m) :
    validateLine cfg.sender = true ∧ validateLine m.recipient = true ∧
      text = lines .begin (cfg.message env m) := by
  obtain ⟨hsaid, -⟩ | ⟨ext, -, hsender, hrecipient, hsaid, -⟩ := send_cases cfg env m
  · rw [served, hsaid, List.flatMap_nil, readSession_nil] at h
    simp at h
  · rw [served_eq hsender hrecipient hsaid] at h
    have hmem := ((initial_said env.accepts 0 _).map Item.received).subset h
    exact ⟨hsender, hrecipient, by simpa [session, Item.received] using hmem⟩

/-- **One mail, and all of it.** Whatever the message says, in whatever order the fields are written
and whatever the server refuses, the server reads nothing, or an initial part of one session, the
whole where `Send` returns no error. The only mail in it is the message with regular line ends,
which is read as the six fields and the body exactly if the subject has no line feed, and does not
end in an odd run of carriage returns. -/
theorem mail_served (cfg : SMTPConfig) (env : MailEnv) (m : EmailMessage) :
    (cfg.served env m = [] ∧ (∃ error, (cfg.send env m).result = .error error) ∨
      ∃ ext, env.opening = .ok ext ∧
        cfg.served env m <+: (cfg.session env m ext).map Item.received ∧
        ∀ result, (cfg.send env m).result = .ok result →
          cfg.served env m = (cfg.session env m ext).map Item.received) ∧
    ∀ text, .mail text ∈ cfg.served env m →
      text = lines .begin (cfg.message env m) ∧
        (readMail text = some (cfg.fields env m, lines .beginLine (body m).toList) ↔
          CleanSubject m) := by
  constructor
  · obtain ⟨hsaid, herror⟩ | ⟨ext, hopening, hsender, hrecipient, hsaid, hall⟩ :=
      send_cases cfg env m
    · refine .inl ⟨?_, herror⟩
      rw [served, hsaid]
      exact readSession_nil env.accepts 0 false
    · have hserved := served_eq hsender hrecipient hsaid
      refine .inr ⟨ext, hopening, ?_, fun result hresult => ?_⟩
      · exact hserved ▸ (initial_said env.accepts 0 _).map Item.received
      · rw [hserved, hall result hresult]
  · intro text htext
    obtain ⟨hsender, hrecipient, rfl⟩ := eq_of_mail_served htext
    exact ⟨rfl, readMail_message_iff hsender hrecipient⟩

def sampleMailEnv : MailEnv where
  now := 0
  sentAt := 1
  range := List.reverse
  range_perm := List.reverse_perm
  opening := .ok ⟨false, false⟩
  refusal := fun _ => none

/-- A body that begins with a dot. -/
theorem mail_served_dotted :
    let cfg : SMTPConfig := ⟨"mx.example.org", "noreply@example.org"⟩
    let m : EmailMessage := ⟨"ann@example.org", "Code", ".five\n"⟩
    cfg.served sampleMailEnv m =
        (cfg.session sampleMailEnv m ⟨false, false⟩).map Item.received ∧
      readMail (lines .begin (cfg.message sampleMailEnv m)) =
        some (cfg.fields sampleMailEnv m, lines .beginLine ".five\n".toList) := by
  intro cfg m
  have hresult : (cfg.send sampleMailEnv m).result = .ok ⟨"smtp_" ++ toString 1,
      .obj [("host", .str cfg.host), ("provider", .str "smtp")]⟩ := by
    have hclean : ¬(!validateLine cfg.sender || !validateLine m.recipient) = true := by decide
    rw [send, if_neg hclean]
    rfl
  obtain ⟨⟨-, error, herror⟩ | ⟨ext, hext, -, hall⟩, hread⟩ := mail_served cfg sampleMailEnv m
  · rw [hresult] at herror
    cases herror
  · obtain rfl : ⟨false, false⟩ = ext := Except.ok.inj hext
    have hserved := hall _ hresult
    refine ⟨hserved, (hread _ ?_).2.mpr ?_⟩
    · rw [hserved]
      simp [session, Item.received]
    · show '\n' ∉ "Code".toList ∧ WriterState.run .data "Code".toList ≠ .cr
      decide

/-- What the worker sends is read as it is meant: it sets the subject itself. -/
theorem worker_mail_served (cfg : SMTPConfig) (env : MailEnv) (job : Job) {text : List Char}
    (h : .mail text ∈ cfg.served env (Worker.providerMessage job).email) :
    readMail text = some (cfg.fields env (Worker.providerMessage job).email,
      lines .beginLine (Worker.recipientFor job.channel job.payload).toList) := by
  obtain ⟨hsender, hrecipient, rfl⟩ := eq_of_mail_served h
  have hclean : CleanSubject (Worker.providerMessage job).email := by
    show '\n' ∉ "Notification".toList ∧ WriterState.run .data "Notification".toList ≠ .cr
    decide
  exact (readMail_message_iff hsender hrecipient).mpr hclean

end SMTPConfig

end NotificationPlatform
