import GhostKey.Admission
import GhostKey.Deployment
import GhostKey.Foundation.Json
import GhostKey.KeyGates

/-!
# The Heir's Contact

Whoever has to reach the heir reads the sealed contact as JSON: an object with a `contact`
and a `channel`. The setup wizard and the heir update seal such an object. The creation
endpoints seal whatever text they are given: one holds the whole text to the shape of an
address of its channel, which no object has on a phone channel, and the other to none.

Main results:
- `updateVaultHeir_readable`: what an update seals can be read.
- `HeirReadable.derivable`: a contact that can be read is enough to derive a key from.
- `fromXpub_readable_iff`, `withGuardians_readable_iff`: when what a creation seals can.
- `wizard_accepted_iff`: which of the wizard's objects pass the check of a creation.
- `heirContacts_iff`: all of this together.
-/

namespace GhostKey

open Foundation Program Prog

variable (S : Server)

/-! ## §1 Texts and addresses -/

/-- The members of an object that a contact is read from. -/
def HeirContact.ofFields (fields : List (String × Option String)) : HeirContact :=
  ⟨(fields.lookup "name").join, (fields.lookup "contact").join, (fields.lookup "channel").join⟩

/-- What the setup wizard writes, `JSON.stringify({ name, contact, channel })`. -/
def wizardBlob (name contact channel : String) : String :=
  jsonObject [("name", some name), ("contact", some contact), ("channel", some channel)]

/-- An address of the shape its channel asks for. -/
def Addressed (channel address : String) : Prop :=
  (channel = "email" ∨ channel = "sms" ∨ channel = "whatsapp") ∧
    validateContactShape channel address = .ok ()

/-- A contact that a message can be sent to. -/
def Deliverable (c : HeirContact) : Prop :=
  ∃ channel address, c.channel = some channel ∧ c.contact = some address ∧
    Addressed channel address

/-- The text is JSON, and of a deliverable contact. -/
def DeliverableText (text : String) : Prop := ∃ c, S.parseHeirJson text = some c ∧ Deliverable c

/-- The heir's contact on file can be read, and used. -/
def HeirReadable (r : VaultRow) : Prop :=
  ∃ c, parseHeirContact S r.id r.contacts.heir = .ok (some c) ∧ Deliverable c

def isJsonSpace (c : Char) : Bool := c ∈ [' ', '\t', '\n', '\r']

/-- What serde_json's reader of a contact does: it reads an object that a serializer wrote
member by member, and nothing that does not begin like an object or an array. -/
structure ReadsJson : Prop where
  written : ∀ fields : List (String × Option String), (fields.map Prod.fst).Nodup →
    S.parseHeirJson (jsonObject fields) = some (.ofFields fields)
  bracketed : ∀ text c, S.parseHeirJson text = some c →
    ∃ first ∈ (text.toList.dropWhile isJsonSpace).head?, first = '{' ∨ first = '['

/-- A sealed text is what its vault opens. -/
def SealsContacts : Prop :=
  ∀ id text ct nonce, S.sealForVault id text = .ok (ct, nonce) → S.openForVault id ct nonce = .ok text

/-! ## §2 Updating the heir -/

/-- `UpdateHeirRequest`. -/
structure UpdateHeirRequest where
  contact : String
  channel : String

/-- What is kept of the contact on file: the name, and the address for comparison. `loose`
is what `from_slice::<Value>` finds of the two members in a text, if it is JSON. -/
def existingContact (loose : String → Option (Option String × Option String)) (r : VaultRow) :
    Except ApiError (Option String × Option String) :=
  match r.contacts.heir.ciphertext, r.contacts.heir.nonce with
  | some ct, some nonce =>
    match S.openForVault r.id ct nonce with
    | .error _ => .error .crypto
    | .ok text =>
      match loose text with
      | some (name, contact) => .ok (name.filter (· ≠ ""), contact.filter (· ≠ ""))
      | none => .ok (none, (some (trim text)).filter (· ≠ ""))
  | _, _ => .ok (none, none)

/-- `update_vault_heir`, on the row it reads: the contact it seals. -/
def updateVaultHeir (loose : String → Option (Option String × Option String)) (r : VaultRow)
    (req : UpdateHeirRequest) : Except ApiError SealedContact := do
  (validateContactChannel S "channel" (some req.channel)).mapError .validation
  let contact := trim req.contact
  if contact = "" then .error (.validation "contact must not be empty")
  else
    (validateContactShape req.channel contact).mapError .validation
    let (existingName, existing) ← existingContact S loose r
    if r.settings.heirDerived ∧ (existing ≠ some contact ∨ req.channel ≠ "email") then
      .error (.validation ("This heir's recovery key is tied to their email, so we can only " ++
        "reach them by email at that address. It can't be changed here."))
    else
      -- `serde_json` writes the members in alphabetical order
      let blob := jsonObject
        [("channel", some req.channel), ("contact", some contact), ("name", existingName)]
      match S.sealForVault r.id blob with
      | .error _ => .error .crypto
      | .ok (ct, nonce) => .ok ⟨some ct, some nonce, some req.channel⟩

/-! ## §3 Reading back -/

section Reading

variable {S : Server} {id : VaultId} {text : String}

/-- A sealed contact is read from the text that was sealed. -/
theorem parseHeirContact_sealed (opens : SealsContacts S) {ct nonce : String}
    (sealed : S.sealForVault id text = .ok (ct, nonce)) (channel : Option String) :
    parseHeirContact S id ⟨some ct, some nonce, channel⟩ =
      match S.parseHeirJson text with
      | none => .error ()
      | some c => .ok (some c) := by
  have opened := opens id text ct nonce sealed
  cases read : S.parseHeirJson text <;> simp [parseHeirContact, opened, read]

theorem sealOpt_some {contact : Option String} {x : Option (String × String)}
    (given : contact.filter (· ≠ "") = some text) (sealed : sealOpt S id contact = .ok x) :
    ∃ ct nonce, S.sealForVault id text = .ok (ct, nonce) ∧ x = some (ct, nonce) := by
  rw [sealOpt, given] at sealed
  dsimp only at sealed
  cases done : S.sealForVault id text with
  | error e =>
    rw [done] at sealed
    cases sealed
  | ok pair =>
    rw [done] at sealed
    cases sealed
    exact ⟨pair.1, pair.2, rfl, rfl⟩

/-- So it can be read and used exactly when that text is of a deliverable contact. -/
theorem heirReadable_iff (opens : SealsContacts S) {r : VaultRow} {contact : Option String}
    {x : Option (String × String)} {channel : Option String}
    (given : contact.filter (· ≠ "") = some text) (sealed : sealOpt S r.id contact = .ok x)
    (stored : r.contacts.heir = sealedContact x channel) :
    HeirReadable S r ↔ DeliverableText S text := by
  obtain ⟨ct, nonce, done, rfl⟩ := sealOpt_some given sealed
  have read := parseHeirContact_sealed opens done channel
  unfold HeirReadable DeliverableText
  rw [stored, sealedContact, Option.map_some, Option.map_some, read]
  cases S.parseHeirJson text with
  | none => simp
  | some c => simp

theorem given_effective {req : CreateVaultFromXpubRequest}
    (effective : effectiveHeirContact req = some text) :
    (effectiveHeirContact req).filter (· ≠ "") = some text := by
  have nonempty : text ≠ "" := by
    rcases Option.or_eq_some_iff.1 effective with given | ⟨-, derived⟩
    · simpa using (Option.filter_eq_some_iff.1 given).2
    · simpa using (Option.filter_eq_some_iff.1 derived).2
  rw [effective]
  simp [nonempty]

/-- A bare address is not read as a contact. -/
theorem not_deliverableText_of_bare (json : ReadsJson S) {c : Char} {cs : List Char}
    (first : text.toList = c :: cs) (bare : isJsonSpace c = false ∧ c ≠ '{' ∧ c ≠ '[') :
    ¬ DeliverableText S text := by
  rintro ⟨contact, read, -⟩
  obtain ⟨d, mem, bracket⟩ := json.bracketed text contact read
  rw [first, List.dropWhile_cons_of_neg (by simp [bare.1])] at mem
  have same : c = d := by simpa using mem
  subst same
  exact bracket.elim bare.2.1 bare.2.2

/-- Nor is anything with the shape of a phone number. -/
theorem not_deliverableText_of_phone (json : ReadsJson S) {channel : String}
    (phone : channel = "sms" ∨ channel = "whatsapp")
    (shape : validateContactShape channel text = .ok ()) : ¬ DeliverableText S text := by
  have other : channel ≠ "email" := by rcases phone with rfl | rfl <;> decide
  unfold validateContactShape at shape
  rw [if_neg other, if_pos phone] at shape
  split at shape
  · next digits plus => exact not_deliverableText_of_bare json plus (by decide)
  · cases shape

end Reading

/-! ## §4 The endpoints -/

section Endpoints

variable {S : Server}

/-- An accepted update has checked the channel and the address, and sealed both. -/
theorem updateVaultHeir_ok {loose : String → Option (Option String × Option String)}
    {r : VaultRow} {req : UpdateHeirRequest} {c : SealedContact}
    (updated : updateVaultHeir S loose r req = .ok c) :
    validateContactChannel S "channel" (some req.channel) = .ok () ∧
      validateContactShape req.channel (trim req.contact) = .ok () ∧
        ∃ name ct nonce, S.sealForVault r.id (jsonObject [("channel", some req.channel),
          ("contact", some (trim req.contact)), ("name", name)]) = .ok (ct, nonce) ∧
            c = ⟨some ct, some nonce, some req.channel⟩ := by
  unfold updateVaultHeir at updated
  -- each check that fails ends the request with its error
  cases known : validateContactChannel S "channel" (some req.channel) with
  | error e =>
    rw [known] at updated
    cases updated
  | ok =>
    rw [known] at updated
    dsimp only [Except.mapError, Bind.bind, Except.bind] at updated
    split at updated
    · cases updated
    · cases shape : validateContactShape req.channel (trim req.contact) with
      | error e =>
        rw [shape] at updated
        cases updated
      | ok =>
        rw [shape] at updated
        dsimp only at updated
        cases kept : existingContact S loose r with
        | error e =>
          rw [kept] at updated
          cases updated
        | ok pair =>
          obtain ⟨name, existing⟩ := pair
          rw [kept] at updated
          dsimp only at updated
          split at updated
          · cases updated
          · split at updated
            · cases updated
            · next ct nonce sealed =>
              cases updated
              exact ⟨rfl, rfl, name, ct, nonce, sealed, rfl⟩

/-- An address has something in it. -/
theorem Addressed.not_blank {channel address : String} (addressed : Addressed channel address) :
    isBlank address = false := by
  obtain ⟨known, shape⟩ := addressed
  by_cases mail : channel = "email"
  · rw [validateContactShape, if_pos mail] at shape
    have at_sign : '@' ∈ address.toList := by
      by_contra absent
      simp [splitOnce, absent] at shape
    rw [isBlank, List.all_eq_false]
    exact ⟨'@', at_sign, by decide⟩
  · rw [validateContactShape, if_neg mail, if_pos (known.resolve_left mail)] at shape
    split at shape
    · next digits plus =>
      rw [isBlank, plus]
      rfl
    · cases shape

/-- So the heir's key can be derived from a contact that can be read. -/
theorem HeirReadable.derivable {r : VaultRow} (readable : HeirReadable S r) {secret : String}
    (derived : r.settings.heirDerived = true) (known : S.vaultSecretHex r.id = .ok secret) :
    ¬ Underivable S r := by
  obtain ⟨c, read, channel, address, -, given, addressed⟩ := readable
  rintro (posted | underivable)
  · rw [derived] at posted
    cases posted
  · exact underivable ⟨c, address, secret, read, given, addressed.not_blank, known⟩

/-- What an update seals can be read. -/
theorem updateVaultHeir_readable (opens : SealsContacts S) (json : ReadsJson S)
    {loose : String → Option (Option String × Option String)} {r : VaultRow}
    {req : UpdateHeirRequest} {c : SealedContact}
    (updated : updateVaultHeir S loose r req = .ok c) :
    HeirReadable S { r with contacts := { r.contacts with heir := c } } := by
  obtain ⟨known, shape, name, ct, nonce, sealed, rfl⟩ := updateVaultHeir_ok updated
  have read := parseHeirContact_sealed opens sealed (some req.channel)
  rw [json.written _ (by simp)] at read
  refine ⟨_, read, req.channel, trim req.contact, rfl, rfl, ?_, shape⟩
  unfold validateContactChannel at known
  dsimp only at known
  split at known
  · next any => exact any
  · cases known

theorem fromXpub_readable_iff (opens : SealsContacts S) (json : ReadsJson S)
    {req : CreateVaultFromXpubRequest} (c : FromXpub S req) {text : String}
    (effective : effectiveHeirContact req = some text) :
    HeirReadable S c.row ↔
      req.heirContactChannel.getD "email" = "email" ∧ DeliverableText S text := by
  have shape := c.heir_shape
  rw [validateGivenContact, given_effective effective] at shape
  rw [heirReadable_iff opens (given_effective effective) c.heir_sealed rfl]
  constructor
  · intro deliverable
    refine ⟨?_, deliverable⟩
    by_contra other
    have known := c.heir_channel
    cases channel : req.heirContactChannel with
    | none => exact other (by rw [channel]; rfl)
    | some name =>
      rw [channel] at shape other known
      have phone : name = "sms" ∨ name = "whatsapp" := by
        unfold validateContactChannel at known
        dsimp only at known
        split at known
        · next any => exact any.resolve_left other
        · cases known
      exact not_deliverableText_of_phone json phone shape deliverable
  · exact fun both => both.2

theorem withGuardians_readable_iff (opens : SealsContacts S) {req : CreateGuardianVaultRequest}
    (c : WithGuardians S req) {text : String}
    (given : req.heirContact.filter (· ≠ "") = some text) :
    HeirReadable S c.row ↔ DeliverableText S text :=
  heirReadable_iff opens given c.heir_sealed rfl

/-! ## §5 The wizard's objects -/

/-- Behind the first `@` there is whatever there is behind a later one. -/
theorem mem_behind_at {c : Char} {b : List Char} (mem : c ∈ b) (a : List Char) :
    c ∈ ((a ++ '@' :: b).dropWhile (· ≠ '@')).tail := by
  induction a with
  | nil => simpa using mem
  | cons x xs ih =>
    by_cases here : x = '@'
    · subst here
      simp [mem]
    · simpa [here] using ih

theorem takeWhile_cons_tail {c : Char} {s : List Char} (mem : c ∈ s) :
    s = s.takeWhile (· ≠ c) ++ c :: (s.dropWhile (· ≠ c)).tail := by
  induction s with
  | nil => cases mem
  | cons x xs ih =>
    by_cases here : x = c
    · subst here
      simp
    · have later := ih ((List.mem_cons.1 mem).resolve_left (Ne.symm here))
      simpa [here] using later

theorem splitOnce_eq {c : Char} {s l d : List Char} (found : splitOnce c s = some (l, d)) :
    s = l ++ c :: d := by
  unfold splitOnce at found
  split at found
  · next mem =>
    cases found
    exact takeWhile_cons_tail mem
  · cases found

/-- The wizard's object has an `@` of the address inside it, and no `@` in front. -/
theorem wizardBlob_at (name channel : String) {contact : String} {l d : List Char}
    (split : contact.toList = l ++ '@' :: d) :
    ∃ a b, (wizardBlob name contact channel).toList = '{' :: (a ++ '@' :: b) ∧
      ∀ c ∈ d, Json.escape c = [c] → c ∈ b := by
  have at_sign : Json.escape '@' = ['@'] := by decide
  refine ⟨Json.member ("name".toList, some name.toList) ++ ',' :: (Json.quote "contact".toList ++
      ':' :: '"' :: l.flatMap Json.escape),
    d.flatMap Json.escape ++ '"' :: (',' :: (Json.member ("channel".toList, some channel.toList) ++
      ['}'])), ?_, ?_⟩
  · simp only [wizardBlob, jsonObject, String.toList_ofList, Json.object, Json.members, Json.member,
      Json.value, Json.quote, List.map_cons, List.map_nil, Option.map_some, split,
      List.flatMap_append, List.flatMap_cons, at_sign, List.append_assoc, List.cons_append,
      List.nil_append]
  · intro c mem plain
    apply List.mem_append_left
    exact List.mem_flatMap.2 ⟨c, mem, by simp [plain]⟩

theorem wizardBlob_ne (name contact channel : String) : wizardBlob name contact channel ≠ "" := by
  intro empty
  have chars := congrArg String.toList empty
  simp [wizardBlob, jsonObject, Json.object] at chars

/-- A creation that looks at the text accepts the wizard's objects on the mail channel only. -/
theorem wizard_accepted_iff (name : String) {contact channel : String}
    (addressed : Addressed channel contact) :
    validateGivenContact (some channel) (some (wizardBlob name contact channel)) = .ok () ↔
      channel = "email" := by
  obtain ⟨known, shape⟩ := addressed
  have given : (some (wizardBlob name contact channel)).filter (· ≠ "") =
      some (wizardBlob name contact channel) := by
    simp [wizardBlob_ne]
  rw [validateGivenContact, given, Option.getD_some]
  dsimp only
  constructor
  · intro accepted
    by_contra other
    -- an object does not begin with a plus sign
    have phone := known.resolve_left other
    rw [validateContactShape, if_neg other, if_pos phone, wizardBlob, jsonObject,
      String.toList_ofList, Json.object] at accepted
    cases accepted
  · rintro rfl
    have found : ∃ l d, splitOnce '@' contact.toList = some (l, d) ∧
        (!l.isEmpty && d.contains '.') = true := by
      rw [validateContactShape, if_pos rfl] at shape
      split at shape
      · next address =>
        obtain ⟨⟨l, d⟩, found, parts⟩ := Option.any_eq_true _ _ |>.1 address
        exact ⟨l, d, found, parts⟩
      · cases shape
    obtain ⟨l, d, found, parts⟩ := found
    simp only [Bool.and_eq_true, List.contains_iff_mem] at parts
    obtain ⟨a, b, text, kept⟩ := wizardBlob_at name "email" (splitOnce_eq found)
    have dot : '.' ∈ (('{' :: a ++ '@' :: b).dropWhile (· ≠ '@')).tail :=
      mem_behind_at (kept '.' parts.2 (by decide)) ('{' :: a)
    have at_sign : '@' ∈ '{' :: a ++ '@' :: b := by simp
    rw [validateContactShape, if_pos rfl, text, ← List.cons_append, splitOnce, if_pos at_sign]
    simp only [Option.any_some, List.contains_iff_mem.2 dot, Bool.and_true]
    simp

/-! ## §6 Together -/

/-- A creation from keys stores a readable contact when the text it is given is one and
names no phone channel; a creation with guardians when the text is one; an update always.
The wizard's objects pass the check of the first on the mail channel only. -/
theorem heirContacts_iff (opens : SealsContacts S) (json : ReadsJson S) :
    (∀ req, Stores (fun r => ∀ text, effectiveHeirContact req = some text →
        (HeirReadable S r ↔
          req.heirContactChannel.getD "email" = "email" ∧ DeliverableText S text))
      (fun _ => True) (createVaultFromXpub S req)) ∧
    (∀ req, Stores (fun r => ∀ text, req.heirContact.filter (· ≠ "") = some text →
        (HeirReadable S r ↔ DeliverableText S text))
      (fun _ => True) (createVaultGuardian S req)) ∧
    (∀ loose r req c, updateVaultHeir S loose r req = .ok c →
      HeirReadable S { r with contacts := { r.contacts with heir := c } }) ∧
    ∀ name contact channel, Addressed channel contact →
      (validateGivenContact (some channel) (some (wizardBlob name contact channel)) = .ok () ↔
        channel = "email") := by
  refine ⟨fun req => ?_, fun req => ?_, fun loose r req c => ?_, fun name contact channel => ?_⟩
  · apply (stores_createVaultFromXpub S req).weaken
    rintro r ⟨c, rfl⟩ text effective
    exact fromXpub_readable_iff opens json c effective
  · apply (stores_createVaultGuardian S req).weaken
    rintro r ⟨c, rfl⟩ text given
    exact withGuardians_readable_iff opens c given
  · exact updateVaultHeir_readable opens json
  · exact wizard_accepted_iff name

end Endpoints

section Phone

open Deployment

/-- A reader of the compact objects that serializers write. -/
def readHeirJson (text : String) : Option HeirContact :=
  (Json.readObject text.toList).map fun fields =>
    .ofFields (fields.map fun f => (.ofList f.1, f.2.map String.ofList))

/-- The deployment with that reader. -/
def jsonHost : Server := { host 86400 with parseHeirJson := readHeirJson }

theorem readsJson_jsonHost : ReadsJson jsonHost where
  written fields _ := by
    have back : (fields.map fun f => (f.1.toList, f.2.map String.toList)).map
        (fun f => (String.ofList f.1, f.2.map String.ofList)) = fields := by
      rw [List.map_map]
      apply List.map_id''
      rintro ⟨key, value⟩
      cases value <;> simp
    show readHeirJson (jsonObject fields) = _
    rw [readHeirJson, jsonObject, String.toList_ofList, Json.readObject_object, Option.map_some, back]
  bracketed text c read := by
    have object : ∃ rest, text.toList = '{' :: rest := by
      obtain ⟨fields, found, -⟩ := Option.map_eq_some_iff.1 read
      unfold Json.readObject at found
      split at found
      · next eq => exact ⟨_, eq⟩
      · next rest _ eq => exact ⟨rest, eq⟩
      · cases found
    obtain ⟨rest, eq⟩ := object
    exact ⟨'{', by simp [eq, isJsonSpace], .inl rfl⟩

theorem sealsContacts_jsonHost : SealsContacts jsonHost := by
  intro id text ct nonce sealed
  cases sealed
  show unmark ("~" ++ text) = .ok text
  simp [unmark]

def phoneBlob : String := wizardBlob "Ada" "+2348000000000" "sms"

/-- The wizard's object for an heir with a phone is refused. -/
theorem heirContacts_iff_phone :
    Addressed "sms" "+2348000000000" ∧
      validateGivenContact (some "sms") (some phoneBlob) ≠ .ok () := by
  have addressed : Addressed "sms" "+2348000000000" := ⟨.inr (.inl rfl), by decide⟩
  have accepted := (heirContacts_iff sealsContacts_jsonHost readsJson_jsonHost).2.2.2 "Ada"
    "+2348000000000" "sms" addressed
  exact ⟨addressed, fun passed => absurd (accepted.1 passed) (by decide)⟩

theorem not_heirContacts : ¬ ∀ S : Server, SealsContacts S → ReadsJson S →
    (∀ req, Stores (fun r => ∀ text, effectiveHeirContact req = some text → HeirReadable S r)
      (fun _ => True) (createVaultFromXpub S req)) ∧
    (∀ req, Stores (fun r => ∀ text, req.heirContact.filter (· ≠ "") = some text →
      HeirReadable S r) (fun _ => True) (createVaultGuardian S req)) ∧
    (∀ loose r req c, updateVaultHeir S loose r req = .ok c →
      HeirReadable S { r with contacts := { r.contacts with heir := c } }) ∧
    ∀ name contact channel, Addressed channel contact →
      validateGivenContact (some channel) (some (wizardBlob name contact channel)) = .ok () := by
  intro agree
  have accepted := (agree jsonHost sealsContacts_jsonHost readsJson_jsonHost).2.2.2 "Ada"
    "+2348000000000" "sms" ⟨.inr (.inl rfl), by decide⟩
  have phone := (wizard_accepted_iff "Ada" ⟨.inr (.inl rfl), by decide⟩).1 accepted
  exact absurd phone (by decide)

end Phone

end GhostKey
