import NotificationPlatform.ConfigWriters
import NotificationPlatform.HandlerCalls
import NotificationPlatform.Lib.JsonObject

/-!
# The provider form of the admin UI

The form of a provider never shows what is stored. When it is saved, the page writes an object from
the fields that are not blank, and `UpdateProviderConfig` stores the object in place of the one
before, or keeps the old one when there is no field at all.
-/

namespace NotificationPlatform

open Lib Lib.Sql JsonText

namespace ProviderForms

inductive FieldType where
  | text
  | number
  | password
  | textarea
  | select
  deriving DecidableEq, Repr

structure ProviderConfigField where
  key : String
  label : String
  type : Option FieldType
  required : Bool

def defaultProviderSchemas : List (String × List ProviderConfigField) :=
  [("mock_email", []),
   ("mock_sms", []),
   ("mock_fcm", []),
   ("websocket", []),
   ("in_app", []),
   ("database_inbox", []),
   ("smtp",
     [⟨"host", "SMTP host", none, true⟩,
      ⟨"port", "Port", some .number, true⟩,
      ⟨"username", "Username", none, false⟩,
      ⟨"password", "Password", some .password, false⟩,
      ⟨"from", "From address", none, true⟩]),
   ("sendgrid",
     [⟨"api_key", "API key", some .password, true⟩,
      ⟨"from", "Verified sender email", none, true⟩,
      ⟨"from_name", "Sender name", none, false⟩,
      ⟨"base_url", "Base URL", none, false⟩]),
   ("mailgun",
     [⟨"api_key", "API key or domain sending key", some .password, true⟩,
      ⟨"domain", "Sending domain", none, true⟩,
      ⟨"region", "Region", some .select, true⟩,
      ⟨"from", "From address", none, true⟩]),
   ("postmark",
     [⟨"server_token", "Server token", some .password, true⟩,
      ⟨"from", "From address", none, true⟩,
      ⟨"message_stream", "Message stream", none, false⟩]),
   ("brevo",
     [⟨"api_key", "API key", some .password, true⟩,
      ⟨"sender_email", "Sender email", none, true⟩,
      ⟨"sender_name", "Sender name", none, false⟩,
      ⟨"template_id", "Default template ID", some .number, false⟩]),
   ("resend",
     [⟨"api_key", "API key", some .password, true⟩,
      ⟨"from", "From address", none, true⟩]),
   ("generic_http_sms",
     [⟨"url", "Endpoint URL", none, true⟩,
      ⟨"method", "Method", some .select, true⟩,
      ⟨"token", "Token", some .password, false⟩,
      ⟨"token_header", "Token header", none, false⟩,
      ⟨"phone_key", "Phone field key", none, false⟩,
      ⟨"message_key", "Message field key", none, false⟩,
      ⟨"timeout_seconds", "Timeout seconds", some .number, false⟩,
      ⟨"body_pattern", "Body pattern JSON", some .textarea, false⟩]),
   ("sparrow",
     [⟨"url", "Endpoint URL", none, true⟩,
      ⟨"token", "Token", some .password, true⟩,
      ⟨"from", "Identity / sender", none, false⟩,
      ⟨"body_pattern", "Body pattern JSON", some .textarea, false⟩]),
   ("twilio",
     [⟨"account_sid", "Account SID", none, true⟩,
      ⟨"auth_token", "Auth token", some .password, true⟩,
      ⟨"from", "From number or messaging service SID", none, true⟩,
      ⟨"status_callback", "Status callback URL", none, false⟩]),
   ("infobip",
     [⟨"base_url", "Base URL", none, true⟩,
      ⟨"api_key", "API key", some .password, true⟩,
      ⟨"from", "Sender", none, true⟩]),
   ("fcm",
     [⟨"service_account_json", "Service account JSON", some .textarea, false⟩,
      ⟨"service_account_path", "Service account path", none, false⟩]),
   ("onesignal",
     [⟨"app_id", "App ID", none, true⟩,
      ⟨"rest_api_key", "REST API key", some .password, true⟩]),
   ("web_push_vapid",
     [⟨"subject", "VAPID subject", none, true⟩,
      ⟨"public_key", "VAPID public key", none, true⟩,
      ⟨"private_key", "VAPID private key", some .password, true⟩])]

structure Form where
  channel : String
  provider : String
  status : String
  isDefault : Bool

abbrev ConfigValues := String → Option String

/-- What `JSON.stringify` writes for a number: one JSON value. -/
abbrev NumberText := { text : String // Whole text }

inductive ConfigValue where
  | text (s : String)
  | number (n : NumberText)

def ConfigValue.stringify : ConfigValue → String
  | .text s => literal escapeJsonb s
  | .number n => n.val

/-- `WhiteSpace` and `LineTerminator` of the language. -/
def isWhiteSpace (c : Char) : Bool :=
  [0x9, 0xA, 0xB, 0xC, 0xD, 0x20, 0xA0, 0x1680, 0x2028, 0x2029, 0x202F, 0x205F, 0x3000,
    0xFEFF].contains c.toNat || (0x2000 ≤ c.toNat && c.toNat ≤ 0x200A)

def trim (s : String) : String :=
  String.ofList (((s.toList.dropWhile isWhiteSpace).reverse.dropWhile isWhiteSpace).reverse)

/-- `values[key]?.trim()`, where a missing value is as blank as an empty one. -/
def ConfigValues.trimmed (values : ConfigValues) (key : String) : String :=
  ((values key).map trim).getD ""

def setProperty {α : Type} : List (String × α) → String → α → List (String × α)
  | [], key, value => [(key, value)]
  | (k, v) :: rest, key, value =>
      if k = key then (key, value) :: rest else (k, v) :: setProperty rest key value

section

/-! `number` is what `JSON.stringify` writes for `Number(value)`. -/

variable (number : String → NumberText)

/-- What a field that is not blank puts into the object. -/
def ProviderConfigField.value (field : ProviderConfigField) (value : String) : ConfigValue :=
  if field.type = some .number then .number (number value) else .text value

def providerConfigFromForm (provider : String) (values : ConfigValues)
    (customRows : List (String × String)) : List (String × ConfigValue) :=
  match defaultProviderSchemas.lookup provider with
  | some fields =>
      fields.foldl (fun out field =>
        let value := values.trimmed field.key
        if value = "" then out else setProperty out field.key (field.value number value)) []
  | none =>
      customRows.foldl (fun out row =>
        let key := trim row.1
        if key = "" then out else setProperty out key (.text row.2)) []

def missingRequiredProviderFields (provider : String) (values : ConfigValues) : List String :=
  match defaultProviderSchemas.lookup provider with
  | some fields => (fields.filter fun field =>
      field.required && values.trimmed field.key = "").map ProviderConfigField.label
  | none => []

def stringify (config : List (String × ConfigValue)) : String :=
  writeObject escapeJsonb (config.map fun member => (member.1, member.2.stringify))

/-- `saveTenantProvider`: the request it sends, or the toast it shows instead. A request without
`config_json` is decoded with an empty one. -/
def saveTenantProvider (form : Form) (editing : Option String) (values : ConfigValues)
    (customRows : List (String × String)) : Except (String × String) AdminRequest :=
  if form.channel = "" ∨ form.provider = "" then
    .error ("Provider and channel are required", "")
  else
    let config := providerConfigFromForm number form.provider values customRows
    let configJSON := if config = [] then "" else stringify config
    match editing with
    | none =>
        let missing := missingRequiredProviderFields form.provider values
        if missing ≠ [] then .error ("Missing provider settings", ", ".intercalate missing)
        else .ok (.createProviderConfig ⟨"", form.channel, form.provider, form.isDefault,
          configJSON⟩)
    | some id =>
        .ok (.updateProviderConfig id ⟨form.provider, some form.isDefault, form.status, configJSON⟩)

/-- The fields that are filled in, with the texts of their values. -/
def filledIn (fields : List ProviderConfigField) (values : ConfigValues) : Members :=
  (fields.filter fun field => values.trimmed field.key ≠ "").map fun field =>
    (field.key, (field.value number (values.trimmed field.key)).stringify)

end

/-- `config_json::text`; `jsonbText` is the text of a value other than a string. -/
def columnText (jsonbText : Json → String) : Value → String
  | .json (.str s) => literal escapeJsonb s
  | .json j => jsonbText j
  | _ => ""

/-- The column is decrypted to the text of an object with these members. -/
def HoldsConfig (gcm : Gcm) (encKey : Option EncKey) (jsonbText : Json → String) (column : Value)
    (members : Members) : Prop :=
  ∃ text, ProviderConfig.decryptProviderConfigJSON gcm encKey (columnText jsonbText column) =
    .ok (textBytes text) ∧ readObject text = some members

/-- The call that encrypts the configuration of an update returns what `security.Encrypt` does. -/
def EncryptedBy (gcm : Gcm) (encKey : Option EncKey) (o : AdminOutcome) (req : AdminRequest) :
    Prop :=
  ∀ id update, req = .updateProviderConfig id update → update.configJSON ≠ "" →
    ∃ random, Security.encrypt gcm encKey random update.configJSON = .ok o.text

section

variable {number : String → NumberText}

theorem setProperty_of_notMem {α : Type} {out : List (String × α)} {key : String} (value : α)
    (h : key ∉ out.map Prod.fst) : setProperty out key value = out ++ [(key, value)] := by
  induction out with
  | nil => rfl
  | cons member rest ih =>
      obtain ⟨k, v⟩ := member
      simp only [List.map_cons, List.mem_cons, not_or] at h
      rw [setProperty, if_neg (Ne.symm h.1), ih h.2]
      rfl

theorem schema_keys_nodup : ∀ schema ∈ defaultProviderSchemas,
    (schema.2.map ProviderConfigField.key).Nodup := by decide

private theorem foldl_setProperty (values : ConfigValues) {fields : List ProviderConfigField}
    {out : List (String × ConfigValue)}
    (hnodup : (out.map Prod.fst ++ fields.map ProviderConfigField.key).Nodup) :
    fields.foldl (fun out field =>
      let value := values.trimmed field.key
      if value = "" then out else setProperty out field.key (field.value number value)) out =
      out ++ (fields.filter fun field => values.trimmed field.key ≠ "").map fun field =>
        (field.key, field.value number (values.trimmed field.key)) := by
  induction fields generalizing out with
  | nil => simp
  | cons field fields ih =>
      rw [List.foldl_cons]
      dsimp only
      by_cases hblank : values.trimmed field.key = ""
      · have hrest : (out.map Prod.fst ++ fields.map ProviderConfigField.key).Nodup := by
          exact List.Nodup.sublist (List.Sublist.append_left (List.sublist_cons_self _ _) _) hnodup
        rw [if_pos hblank, ih hrest, List.filter_cons_of_neg (by simp [hblank])]
      · have hnew : field.key ∉ out.map Prod.fst := by
          intro hmem
          have hdisjoint := (List.nodup_append.mp hnodup).2.2 _ hmem field.key (by simp)
          exact hdisjoint rfl
        rw [if_neg hblank, setProperty_of_notMem _ hnew, ih,
          List.filter_cons_of_pos (by simp [hblank])]
        · simp
        · simpa using hnodup

theorem providerConfigFromForm_known {provider : String} {fields : List ProviderConfigField}
    (hfields : defaultProviderSchemas.lookup provider = some fields) (values : ConfigValues)
    (customRows : List (String × String)) :
    (providerConfigFromForm number provider values customRows).map
      (fun member => (member.1, member.2.stringify)) = filledIn number fields values := by
  obtain ⟨before, after, hschemas, -⟩ := List.lookup_eq_some_iff.mp hfields
  have hnodup := schema_keys_nodup (provider, fields) (by rw [hschemas]; simp)
  unfold providerConfigFromForm
  rw [hfields]
  dsimp only
  rw [foldl_setProperty values (by simpa using hnodup)]
  simp [filledIn]

theorem whole_filledIn (fields : List ProviderConfigField) (values : ConfigValues) :
    ∀ member ∈ filledIn number fields values, Whole member.2 := by
  intro member hmember
  obtain ⟨field, -, rfl⟩ := List.mem_map.mp hmember
  dsimp only
  cases field.value number (values.trimmed field.key) with
  | text s => exact whole_literal reads_jsonb s
  | number n => exact n.property

theorem saveTenantProvider_edit {form : Form} {id : String} {values : ConfigValues}
    {customRows : List (String × String)} {req : AdminRequest}
    {fields : List ProviderConfigField}
    (hfields : defaultProviderSchemas.lookup form.provider = some fields)
    (h : saveTenantProvider number form (some id) values customRows = .ok req) :
    req = .updateProviderConfig id ⟨form.provider, some form.isDefault, form.status,
      if filledIn number fields values = [] then ""
      else writeObject escapeJsonb (filledIn number fields values)⟩ := by
  have hknown := @providerConfigFromForm_known number _ _ hfields values customRows
  unfold saveTenantProvider at h
  split at h
  · simp at h
  · rw [← Except.ok.inj h, ← hknown]
    simp only [List.map_eq_nil_iff, stringify]

end

section

variable {env : Nat → AdminOutcome} {s : AdminState} {p : Principal} {id : String}

private theorem finishProviderConfig_row {b : Builder} (hb : b.Numbered) (hconds : b.conds = [])
    {r : JsonResponse × AdminState}
    (h : (finishProviderConfig p id b).eval (AdminState.call env) s = r) (hok : r.1.status = 200)
    {i : Nat} {row : Row Value} (hrow : (s.db .tenantProviderConfigs)[i]? = some row)
    (hwrites : mayWrite p id row) :
    ∃ bsets, adminEngine.bind (.time (env s.calls).now) (b.limited p id).args b.sets =
      some bsets ∧ (r.2.db .tenantProviderConfigs)[i]? = some (assign bsets row) :=
  limited_update_row rfl (by decide) hb hconds h hok hrow hwrites

private def settings (update : ProviderConfigUpdate) : Builder :=
  ((Builder.start.setText "provider" update.provider).setSome "is_default" .bool
    update.isDefault).setText "status" update.status

private theorem settings_numbered (update : ProviderConfigUpdate) :
    (settings update).Numbered :=
  ((Builder.numbered_start.setText "provider" (by decide) _).setSome "is_default" (by decide) _
    _).setText "status" (by decide) _

private theorem settings_conds (update : ProviderConfigUpdate) : (settings update).conds = [] := by
  unfold settings Builder.setText Builder.setSome
  split <;> split <;> split <;> rfl

private theorem settings_columns (update : ProviderConfigUpdate) :
    (settings update).sets.map Prod.fst =
      ((["updated_at"] ++ if update.provider = "" then [] else ["provider"]) ++
        if update.isDefault.isNone then [] else ["is_default"]) ++
          if update.status = "" then [] else ["status"] := by
  rw [settings, setText_columns, setSome_columns, setText_columns]
  rfl

theorem updateProviderConfig_row {update : ProviderConfigUpdate} {r : JsonResponse × AdminState}
    (h : (updateProviderConfig p id update).eval (AdminState.call env) s = r)
    (hok : r.1.status = 200) {i : Nat} {row : Row Value}
    (hrow : (s.db .tenantProviderConfigs)[i]? = some row) (hwrites : mayWrite p id row) :
    ∃ row', (r.2.db .tenantProviderConfigs)[i]? = some row' ∧ row' "config_json" =
      if update.configJSON = "" then row "config_json" else .json (.str (env s.calls).text) := by
  have hcolumns := settings_columns update
  unfold updateProviderConfig at h
  dsimp only at h
  by_cases hconfig : update.configJSON = ""
  · rw [if_neg (not_not.mpr hconfig)] at h
    obtain ⟨bsets, hsets, hrow'⟩ := finishProviderConfig_row (settings_numbered update)
      (settings_conds update) h hok hrow hwrites
    refine ⟨_, hrow', ?_⟩
    rw [if_pos hconfig]
    apply assign_of_notMem
    rw [Engine.bound_columns hsets, hcolumns]
    split <;> split <;> split <;> decide
  · rw [if_pos hconfig, Prog.eval_bind] at h
    rw [if_neg hconfig]
    rcases call_cases env (.encrypt update.configJSON) s with
      ⟨e, heq⟩ | ⟨text, db', -, hperform, heq⟩
    · have hencrypt : (encryptedProviderConfigJSON update.configJSON).eval (AdminState.call env) s =
          (.error e, ⟨s.db, s.calls + 1⟩) := by
        rw [encryptedProviderConfigJSON, Prog.perform_bind, Prog.eval_call, heq]
        rfl
      rw [hencrypt] at h
      rw [← h] at hok
      simp [JsonResponse.error] at hok
    · obtain ⟨rfl, rfl⟩ := Prod.mk.inj (Except.ok.inj hperform)
      have hencrypt : (encryptedProviderConfigJSON update.configJSON).eval (AdminState.call env) s =
          (.ok (.str (env s.calls).text), ⟨s.db, s.calls + 1⟩) := by
        rw [encryptedProviderConfigJSON, Prog.perform_bind, Prog.eval_call, heq]
        rfl
      rw [hencrypt] at h
      have hnumbered := settings_numbered update
      obtain ⟨hmem, harg⟩ := set_mem hnumbered "config_json" (.json (.str (env s.calls).text))
      obtain ⟨bsets, hsets, hrow'⟩ := finishProviderConfig_row
        (hnumbered.set "config_json" (by decide) _) (settings_conds update) h hok hrow hwrites
      refine ⟨_, hrow', ?_⟩
      obtain ⟨v, hv, heval⟩ := Engine.exists_bound hsets hmem
      have hread : Value.json (.str (env s.calls).text) = v := by
        simpa [Term.eval, limited_arg id harg, adminEngine, readColumn] using heval
      subst v
      apply assign_of_mem _ hv
      rw [Engine.bound_columns hsets]
      have hset : ((settings update).set "config_json"
          (.json (.str (env s.calls).text))).sets.map Prod.fst =
          (settings update).sets.map Prod.fst ++ ["config_json"] := by
        simp [Builder.set]
      rw [hset, hcolumns]
      split <;> split <;> split <;> decide

end

section

variable {gcm : Gcm} {encKey : Option EncKey} {jsonbText : Json → String}

theorem textBytes_inj {s t : String} (h : textBytes s = textBytes t) : s = t := by
  apply String.toByteArray_inj.mp
  apply ByteArray.ext
  exact Array.toList_inj.mp h

theorem holdsConfig_encrypted (hopens : gcm.Opens) {random : Option Nonce}
    {plain encrypted : String} (hplain : plain ≠ "")
    (h : Security.encrypt gcm encKey random plain = .ok encrypted) {members : Members} :
    HoldsConfig gcm encKey jsonbText (.json (.str encrypted)) members ↔
      readObject plain = some members := by
  obtain ⟨key, nonce, rfl, rfl⟩ := key_of_encrypt hplain h
  obtain ⟨encrypted', hencrypt, -, hdecrypt⟩ := decrypt_encrypt hopens key nonce plain
  obtain rfl : encrypted' = encrypted := Except.ok.inj (hencrypt.symm.trans h)
  have hreads : ProviderConfig.decryptProviderConfigJSON gcm (some key)
      (columnText jsonbText (.json (.str encrypted'))) = .ok (textBytes plain) := by
    rw [columnText, ProviderConfig.decryptProviderConfigJSON,
      unmarshalString_literal reads_jsonb]
    exact hdecrypt
  constructor
  · rintro ⟨text, htext, hobject⟩
    have hbytes := Except.ok.inj (htext.symm.trans hreads)
    rw [← textBytes_inj hbytes]
    exact hobject
  · intro hobject
    exact ⟨plain, hreads, hobject⟩

variable {env : Nat → AdminOutcome} {s : AdminState} {p : Principal} {cfg : AdminConfig}

variable (jsonbText) in
theorem provider_edit_result (hopens : gcm.Opens) {number : String → NumberText}
    {form : Form} {fields : List ProviderConfigField}
    (hfields : defaultProviderSchemas.lookup form.provider = some fields) {id : String}
    {values : ConfigValues} {customRows : List (String × String)} {req : AdminRequest}
    (hsave : saveTenantProvider number form (some id) values customRows = .ok req)
    (hencrypt : EncryptedBy gcm encKey (env s.calls) req) {r : JsonResponse × AdminState}
    (hserve : (serve cfg p req).eval (AdminState.call env) s = r) (hok : r.1.status = 200)
    {i : Nat} {row : Row Value} (hrow : (s.db .tenantProviderConfigs)[i]? = some row)
    (hwrites : mayWrite p id row) :
    ∃ after, (r.2.db .tenantProviderConfigs)[i]? = some after ∧
      (filledIn number fields values = [] → after "config_json" = row "config_json") ∧
      (filledIn number fields values ≠ [] → ∀ new,
        HoldsConfig gcm encKey jsonbText (after "config_json") new ↔
          new = filledIn number fields values) := by
  obtain rfl := saveTenantProvider_edit hfields hsave
  obtain ⟨after, hafter, hcolumn⟩ := updateProviderConfig_row hserve hok hrow hwrites
  dsimp only at hcolumn
  refine ⟨after, hafter, ?_, ?_⟩
  · intro hblank
    rw [if_pos hblank, if_pos rfl] at hcolumn
    exact hcolumn
  · intro hfilled new
    have hne : writeObject escapeJsonb (filledIn number fields values) ≠ "" := by
      intro hempty
      have hlist := congrArg String.toList hempty
      simp [writeObject] at hlist
    rw [if_neg hfilled, if_neg hne] at hcolumn
    obtain ⟨random, hsealed⟩ := hencrypt id _ rfl (by rw [if_neg hfilled]; exact hne)
    dsimp only at hsealed
    rw [if_neg hfilled] at hsealed
    rw [hcolumn, holdsConfig_encrypted hopens hne hsealed,
      readObject_writeObject reads_jsonb (whole_filledIn fields values), Option.some.injEq,
      eq_comm]

/-- An edit of a provider replaces the fields that are filled in and keeps the others if and only
if no field is filled in, or every key that was stored is one of those. -/
theorem provider_edit_keeps_blank_iff (hopens : gcm.Opens) {number : String → NumberText}
    {form : Form} {fields : List ProviderConfigField}
    (hfields : defaultProviderSchemas.lookup form.provider = some fields) {id : String}
    {values : ConfigValues} {customRows : List (String × String)} {req : AdminRequest}
    (hsave : saveTenantProvider number form (some id) values customRows = .ok req)
    (hencrypt : EncryptedBy gcm encKey (env s.calls) req) {r : JsonResponse × AdminState}
    (hserve : (serve cfg p req).eval (AdminState.call env) s = r) (hok : r.1.status = 200)
    {i : Nat} {row : Row Value} (hrow : (s.db .tenantProviderConfigs)[i]? = some row)
    (hwrites : mayWrite p id row) {old : Members}
    (hold : HoldsConfig gcm encKey jsonbText (row "config_json") old) :
    (∃ after new, (r.2.db .tenantProviderConfigs)[i]? = some after ∧
      HoldsConfig gcm encKey jsonbText (after "config_json") new ∧
        Updated old (filledIn number fields values) new) ↔
      filledIn number fields values = [] ∨
        ∀ key ∈ old.map Prod.fst, key ∈ (filledIn number fields values).map Prod.fst := by
  obtain ⟨after, hafter, hkept, hstored⟩ :=
    provider_edit_result jsonbText hopens hfields hsave hencrypt hserve hok hrow hwrites
  by_cases hblank : filledIn number fields values = []
  · rw [hblank]
    refine iff_of_true ⟨after, old, hafter, ?_, updated_nil old⟩ (.inl rfl)
    rw [hkept hblank]
    exact hold
  · rw [or_iff_right hblank, ← updated_self_iff]
    constructor
    · rintro ⟨after', new, hafter', hholds, hupdated⟩
      obtain rfl := Option.some.inj (hafter.symm.trans hafter')
      obtain rfl := (hstored hblank new).mp hholds
      exact hupdated
    · intro hupdated
      exact ⟨after, _, hafter, (hstored hblank _).mpr rfl, hupdated⟩

end

/-! A tenant that edits its SendGrid provider. -/

def sampleSealing (plain : String) : String :=
  match Security.encrypt sampleGcm (some sampleEncKey) (some sampleNonce) plain with
  | .ok encrypted => encrypted
  | .error _ => ""

theorem encrypt_sampleSealing (plain : String) :
    Security.encrypt sampleGcm (some sampleEncKey) (some sampleNonce) plain =
      .ok (sampleSealing plain) := by
  obtain ⟨encrypted, hencrypt, -⟩ := decrypt_encrypt sampleGcm_opens sampleEncKey sampleNonce plain
  simp [sampleSealing, hencrypt]

def notANumber : String → NumberText := fun _ => ⟨"null", whole_null⟩

def sendgridFields : List ProviderConfigField :=
  [⟨"api_key", "API key", some .password, true⟩,
   ⟨"from", "Verified sender email", none, true⟩,
   ⟨"from_name", "Sender name", none, false⟩,
   ⟨"base_url", "Base URL", none, false⟩]

def sendgridConfig : Members :=
  [("api_key", literal escapeJsonb "SG.old"), ("from", literal escapeJsonb "old@example.com")]

def sendgridRow : Row Value
  | "id" => .text "22222222-2222-2222-2222-222222222222"
  | "tenant_id" => .text "11111111-1111-1111-1111-111111111111"
  | "channel" => .text "email"
  | "provider" => .text "sendgrid"
  | "config_json" => .json (.str (sampleSealing (writeObject escapeJsonb sendgridConfig)))
  | "is_default" => .bool true
  | "status" => .text "active"
  | _ => .null

def sendgridRequest (values : ConfigValues) : AdminRequest :=
  .updateProviderConfig "22222222-2222-2222-2222-222222222222" ⟨"sendgrid", some true, "active",
    writeObject escapeJsonb (filledIn notANumber sendgridFields values)⟩

def sendgridEnv (values : ConfigValues) : Nat → AdminOutcome := fun _ =>
  { text := sampleSealing (writeObject escapeJsonb (filledIn notANumber sendgridFields values)) }

def sendgridState : AdminState :=
  ⟨fun table => if table = .tenantProviderConfigs then [sendgridRow] else [], 0⟩

def sendgridUser : Principal := ⟨1, "11111111-1111-1111-1111-111111111111", false, []⟩

def sendgridForm : Form := ⟨"email", "sendgrid", "active", true⟩

def sendgridRun (values : ConfigValues) : JsonResponse × AdminState :=
  (serve ⟨id, fun _ => none, fun _ => ""⟩ sendgridUser (sendgridRequest values)).eval
    (AdminState.call (sendgridEnv values)) sendgridState

def newKeyAndSender : ConfigValues
  | "api_key" => some "SG.new"
  | "from" => some "new@example.com"
  | _ => none

def newSender : ConfigValues
  | "from" => some "new@example.com"
  | _ => none

theorem sendgrid_lookup : defaultProviderSchemas.lookup "sendgrid" = some sendgridFields := rfl

theorem sendgridRow_mayWrite :
    mayWrite sendgridUser "22222222-2222-2222-2222-222222222222" sendgridRow :=
  ⟨⟨_, rfl, rfl⟩, fun _ => ⟨_, rfl, rfl⟩⟩

theorem sendgridRow_holds : HoldsConfig sampleGcm (some sampleEncKey) (fun _ => "")
    (sendgridRow "config_json") sendgridConfig := by
  have hne : writeObject escapeJsonb sendgridConfig ≠ "" := by
    intro hempty
    have hlist := congrArg String.toList hempty
    simp [writeObject] at hlist
  apply (holdsConfig_encrypted sampleGcm_opens hne (encrypt_sampleSealing _)).mpr
  apply readObject_writeObject reads_jsonb
  intro m hm
  simp only [sendgridConfig, List.mem_cons, List.not_mem_nil, or_false] at hm
  rcases hm with rfl | rfl <;> exact whole_literal reads_jsonb _

theorem sendgridEnv_encrypts (values : ConfigValues) :
    EncryptedBy sampleGcm (some sampleEncKey) (sendgridEnv values 0) (sendgridRequest values) := by
  intro id update heq _
  obtain ⟨-, rfl⟩ := AdminRequest.updateProviderConfig.inj heq
  exact ⟨some sampleNonce, encrypt_sampleSealing _⟩

theorem sendgridRun_eq (values : ConfigValues) :
    (serve ⟨id, fun _ => none, fun _ => ""⟩ sendgridUser (sendgridRequest values)).eval
      (AdminState.call (sendgridEnv values)) sendgridState = sendgridRun values := rfl

theorem sendgridState_row : (sendgridState.db .tenantProviderConfigs)[0]? = some sendgridRow := rfl

theorem new_key_and_sender_replace : ∃ after new,
    ((sendgridRun newKeyAndSender).2.db .tenantProviderConfigs)[0]? = some after ∧
      HoldsConfig sampleGcm (some sampleEncKey) (fun _ => "") (after "config_json") new ∧
        Updated sendgridConfig (filledIn notANumber sendgridFields newKeyAndSender) new := by
  have hsave : saveTenantProvider notANumber sendgridForm
      (some "22222222-2222-2222-2222-222222222222") newKeyAndSender [] =
        .ok (sendgridRequest newKeyAndSender) := rfl
  exact (provider_edit_keeps_blank_iff sampleGcm_opens sendgrid_lookup hsave
    (sendgridEnv_encrypts _) (sendgridRun_eq _) rfl sendgridState_row sendgridRow_mayWrite
    sendgridRow_holds).mpr (.inr (by decide))

/-- The API key that is left blank is gone. -/
theorem new_sender_drops_key : (sendgridRun newSender).1.status = 200 ∧ ¬∃ after new,
    ((sendgridRun newSender).2.db .tenantProviderConfigs)[0]? = some after ∧
      HoldsConfig sampleGcm (some sampleEncKey) (fun _ => "") (after "config_json") new ∧
        Updated sendgridConfig (filledIn notANumber sendgridFields newSender) new := by
  refine ⟨rfl, ?_⟩
  rintro ⟨after, new, hafter, hholds, hupdated⟩
  have hfilled : filledIn notANumber sendgridFields newSender ≠ [] := by decide
  have hsave : saveTenantProvider notANumber sendgridForm
      (some "22222222-2222-2222-2222-222222222222") newSender [] =
        .ok (sendgridRequest newSender) := rfl
  obtain ⟨after', hafter', -, hstored⟩ := provider_edit_result (fun _ => "") sampleGcm_opens
    sendgrid_lookup hsave (sendgridEnv_encrypts _) (sendgridRun_eq _) rfl sendgridState_row
    sendgridRow_mayWrite
  obtain rfl := Option.some.inj (hafter'.symm.trans hafter)
  obtain rfl := (hstored hfilled new).mp hholds
  have hkey := updated_self_iff.mp hupdated "api_key" (by decide)
  exact absurd hkey (by decide)

end ProviderForms

end NotificationPlatform
