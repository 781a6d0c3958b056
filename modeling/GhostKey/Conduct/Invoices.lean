import GhostKey.Conduct
import GhostKey.Conduct.Tidy

/-!
# Who Writes Invoices

An invoice is written down by the request that had it minted, and only the poller moves it
on: it lists the pending ones, asks the provider about each and acts once on what it is told.

Main results:
- `minds_request`: what has gone before every action on an invoice, and which invoices a reply
  hands out.
-/

namespace GhostKey

namespace Invoices

open Foundation Program Prog

/-! ## §1 Actions on invoices -/

/-- The payment hash of the invoice that the poller acts on. -/
def settles? : Action → Option String
  | .payCheckin paymentHash _ => some paymentHash
  | .payPanic paymentHash _ => some paymentHash
  | .exec (.invoiceExpired paymentHash) => some paymentHash
  | .exec (.invoiceFailed paymentHash _) => some paymentHash
  | _ => none

/-- What the poller does, by the invoice it has listed and the provider's answer. -/
inductive Follows (i : InvoiceRow) : ProviderStatus → Action → Prop
  | checkin (t : Instant) (type : i.invoiceType = .checkin) :
      Follows i .paid (.payCheckin i.paymentHash t)
  | panic (t : Instant) (type : i.invoiceType = .panic) :
      Follows i .paid (.payPanic i.paymentHash t)
  | expired : Follows i .expired (.exec (.invoiceExpired i.paymentHash))
  | failed (reason : String) :
      Follows i (.failed reason) (.exec (.invoiceFailed i.paymentHash reason))

/-- The poller has listed the invoice, then been told something of it that it acts on now, for
the first time unless it has listed some invoice twice. -/
def Heard (h : Hist) (a : Action) (i : InvoiceRow) : Prop :=
  ∃ (before after : Hist) (status : ProviderStatus) (rows : List InvoiceRow),
    h = before ++ (⟨.ask (.invoiceStatus i.paymentHash), .ok status⟩ : Ev) :: after ∧
      Read before .pendingInvoices rows ∧ i ∈ rows ∧ Follows i status a ∧
        ((rows.map InvoiceRow.paymentHash).Nodup →
          ∀ e ∈ h, settles? e.action ≠ some i.paymentHash)

/-- The request is for an invoice of this vault and type. -/
def AsksFor (q : Request) (v : VaultId) (type : InvoiceType) : Prop :=
  (type = .checkin ∧ (q = .createInvoice v ∨ ∃ token, q = .createInvoiceFromLink v token)) ∨
    ∃ amount isPanic, q = .lnurlpCallback v amount isPanic ∧
      type = if isPanic then .panic else .checkin

/-- The invoice is what the provider has minted for the request, in the vault's name. -/
def Issued (S : Server) (q : Request) (h : Hist) (i : InvoiceRow) : Prop :=
  AsksFor q i.vaultId i.invoiceType ∧ ∃ invoice t,
    (⟨.ask (.createInvoice S.heartbeatAmountSat
      ("ghostkey:" ++ i.invoiceType.name ++ ":" ++ i.vaultId)), .ok invoice⟩ : Ev) ∈ h ∧
    i = ⟨i.vaultId, invoice.bolt11, invoice.paymentHash, invoice.amountSat, i.invoiceType,
      .pending, t, invoice.expiresAt, none, none, none⟩

/-- What goes before an action on an invoice. -/
structure Minds (S : Server) (q : Request) (h : Hist) (a : Action) : Prop where
  issues : ∀ i, a = .exec (.insertInvoice i) → Issued S q h i
  settles : ∀ hash, settles? a = some hash →
    q = .pollerTick ∧ ∃ i, i.paymentHash = hash ∧ Heard h a i
  expires : ∀ t, a = .exec (.expireInvoices t) → q = .pollerTick ∧ h = [⟨.now, t⟩]

/-- An action that neither writes nor settles an invoice. -/
def isBystander : Action → Bool
  | .exec (.insertInvoice _) => false
  | .exec (.expireInvoices _) => false
  | .exec (.invoiceExpired _) => false
  | .exec (.invoiceFailed _ _) => false
  | .payCheckin _ _ => false
  | .payPanic _ _ => false
  | _ => true

instance : Everyday isBystander := ⟨fun a everyday => by
  cases a with
  | exec st => cases st <;> first | rfl | cases everyday
  | payCheckin paymentHash t => cases everyday
  | payPanic paymentHash t => cases everyday
  | _ => rfl⟩

variable {S : Server} {q : Request} {h : Hist} {a : Action}

theorem settles?_of_bystander (bystander : isBystander a = true) : settles? a = none := by
  cases a with
  | exec st => cases st <;> first | rfl | cases bystander
  | payCheckin paymentHash t => cases bystander
  | payPanic paymentHash t => cases bystander
  | _ => rfl

theorem minds_of_bystander (bystander : isBystander a = true) : Minds S q h a where
  issues i same := by
    subst same
    cases bystander
  settles hash same := by
    rw [settles?_of_bystander bystander] at same
    cases same
  expires t same := by
    subst same
    cases bystander

theorem minds_insertInvoice {i : InvoiceRow} (issued : Issued S q h i) :
    Minds S q h (.exec (.insertInvoice i)) where
  issues j same := by
    cases same
    exact issued
  settles hash same := by cases same
  expires t same := by cases same

theorem minds_expireInvoices {t : Instant} :
    Minds S .pollerTick [⟨.now, t⟩] (.exec (.expireInvoices t)) where
  issues i same := by cases same
  settles hash same := by cases same
  expires t' same := by
    cases same
    exact ⟨rfl, rfl⟩

theorem minds_settle {i : InvoiceRow} (heard : Heard h a i)
    (settles : settles? a = some i.paymentHash) : Minds S .pollerTick h a where
  issues j same := by
    subst same
    cases settles
  settles hash same := ⟨rfl, i, Option.some.inj (settles.symm.trans same), heard⟩
  expires t same := by
    subst same
    cases settles

/-- What is tidy stays aside. -/
theorem bystands {α : Type} {p : Prog α} (tidy : Tidy S isBystander p) (h : Hist) :
    Meets (fun _ e => isBystander e.action = true) (fun _ _ => True) p h := by
  refine Meets.mono (tidy.meets h) (fun g e good => ?_) fun _ _ _ => trivial
  rcases good with bystander | ⟨v, token, t, g', same, -⟩
  · exact bystander
  · rw [same]
    rfl

theorem minds_of_tidy {α : Type} {p : Prog α} (tidy : Tidy S isBystander p) (h : Hist) :
    Meets (fun g e => Minds S q g e.action) (fun _ _ => True) p h :=
  Meets.mono (bystands tidy h) (fun _ _ bystander => minds_of_bystander bystander) fun _ _ e => e

theorem minds_and_adds {α : Type} {p : Prog α} (tidy : Tidy S isBystander p) (h : Hist) :
    Meets (fun g e => Minds S q g e.action) (fun g _ => ∃ more, g = h ++ more) p h := by
  refine Meets.mono (bystands tidy h).adds
    (fun _ _ bystander => minds_of_bystander bystander) fun g _ => ?_
  rintro ⟨more, same, -⟩
  exact ⟨more, same⟩

/-! ## §2 The poller -/

section Poller

/-- The event settles no invoice but this one. -/
def Spares (hash : String) (e : Ev) : Prop :=
  ∀ other, settles? e.action = some other → other = hash

theorem spares_of_bystander {hash : String} {e : Ev} (bystander : isBystander e.action = true) :
    Spares hash e := by
  intro other same
  rw [settles?_of_bystander bystander] at same
  cases same

/-- What follows a settlement: nothing but bystanders. -/
theorem meets_after {α : Type} {p : Prog α} {hash : String} (tidy : Tidy S isBystander p)
    {h more : Hist} (spares : ∀ e ∈ more, Spares hash e) :
    Meets (fun g e => Minds S q g e.action)
      (fun g _ => ∃ more, g = h ++ more ∧ ∀ e ∈ more, Spares hash e) p (h ++ more) := by
  refine Meets.mono (bystands tidy (h ++ more)).adds
    (fun _ _ bystander => minds_of_bystander bystander) ?_
  rintro g r ⟨rest, rfl, bystand⟩
  refine ⟨more ++ rest, by simp, fun e mem => ?_⟩
  rcases List.mem_append.1 mem with old | new
  · exact spares e old
  · exact spares_of_bystander (bystand e new)

/-- What is heard is still heard after the clock is read. -/
theorem Heard.now {i : InvoiceRow} (heard : Heard h a i) (t : Instant) :
    Heard (h ++ [(⟨.now, t⟩ : Ev)]) a i := by
  obtain ⟨before, after, status, rows, rfl, read, mem, follows, once⟩ := heard
  refine ⟨before, after ++ [⟨.now, t⟩], status, rows, by simp, read, mem, follows, ?_⟩
  intro nodup e mem'
  rcases List.mem_append.1 mem' with old | new
  · exact once nodup e old
  · rw [List.mem_singleton.1 new]
    intro same
    cases same

/-- What a round of the poller has done by its end. -/
abbrev Round (h : Hist) (hash : String) (g : Hist) : Prop :=
  ∃ more, g = h ++ more ∧ ∀ e ∈ more, Spares hash e

theorem Round.trans {hash : String} {g g' : Hist} (first : Round h hash g)
    (second : Round g hash g') : Round h hash g' := by
  obtain ⟨more, rfl, spares⟩ := first
  obtain ⟨later, rfl, spares'⟩ := second
  refine ⟨more ++ later, List.append_assoc _ _ _, fun e mem => ?_⟩
  exact (List.mem_append.1 mem).elim (spares e) (spares' e)

theorem meets_logged {α : Type} {p : Prog α} {hash : String}
    (meets : Meets (fun g e => Minds S q g e.action) (fun g _ => Round h hash g) p h) :
    Meets (fun g e => Minds S q g e.action) (fun g _ => Round h hash g) (logged p) h :=
  Meets.bind (Q := fun g _ => Round h hash g) (Meets.attempt meets fun _ _ round => round)
    (fun _ _ _ round => round) fun _ _ _ round => round

/-- One settlement, and what bystands behind it. -/
theorem meets_settle {α : Type} {i : InvoiceRow} {a : Action} {f : a.Response → Prog α}
    (heard : Heard h a i) (settles : settles? a = some i.paymentHash)
    (tail : ∀ r, Tidy S isBystander (f r)) :
    Meets (fun g e => Minds S .pollerTick g e.action) (fun g _ => Round h i.paymentHash g)
      (.act a f) h := by
  refine fun r => ⟨minds_settle heard settles, meets_after (tail r) ?_⟩
  intro e mem other same
  rw [List.mem_singleton.1 mem] at same
  exact Option.some.inj (same.symm.trans settles)

/-- The same behind a look at the clock. -/
theorem meets_settle_now {i : InvoiceRow} {a : Instant → Action}
    {f : ∀ t, (a t).Response → Prog Unit} (heard : ∀ t, Heard h (a t) i)
    (settles : ∀ t, settles? (a t) = some i.paymentHash)
    (tail : ∀ t r, Tidy S isBystander (f t r)) :
    Meets (fun g e => Minds S .pollerTick g e.action) (fun g _ => Round h i.paymentHash g)
      (.act .now fun t => .act (a t) (f t)) h := by
  refine fun t => ⟨minds_of_bystander rfl, ?_⟩
  refine Meets.mono (meets_settle ((heard t).now t) (settles t) (tail t)) (fun _ _ e => e) ?_
  rintro g r ⟨more, rfl, spares⟩
  refine ⟨⟨.now, t⟩ :: more, by simp, fun e mem => ?_⟩
  rcases List.mem_cons.1 mem with rfl | later
  · exact spares_of_bystander rfl
  · exact spares e later

theorem meets_markPaidAndCheckin {i : InvoiceRow}
    (heard : ∀ t, Heard h (.payCheckin i.paymentHash t) i) :
    Meets (fun g e => Minds S .pollerTick g e.action) (fun g _ => Round h i.paymentHash g)
      (markPaidAndCheckin i.paymentHash) h := by
  refine meets_settle_now heard (fun _ => rfl) fun t r => ?_
  cases r with
  | error e => exact tidy_fail _
  | ok outcome =>
    refine tidy_bind (tidy_pure outcome) fun outcome => ?_
    cases outcome with
    | alreadyProcessed => exact tidy_pure _
    | noVaultRow => exact tidy_fail _
    | paid vaultId reset siblings =>
      dsimp only
      split
      · exact tidy_bind (tidy_recordEvent rfl) fun _ =>
          tidy_forEach (fun _ => tidy_recordEvent rfl) siblings
      · exact tidy_forEach (fun _ => tidy_recordEvent rfl) siblings

theorem meets_markPanicPaid {i : InvoiceRow}
    (heard : ∀ t, Heard h (.payPanic i.paymentHash t) i) :
    Meets (fun g e => Minds S .pollerTick g e.action) (fun g _ => Round h i.paymentHash g)
      (markPanicPaid S i.paymentHash) h := by
  refine meets_settle_now heard (fun _ => rfl) fun t r => ?_
  cases r with
  | error e => exact tidy_fail _
  | ok outcome =>
    refine tidy_bind (tidy_pure outcome) fun outcome => ?_
    cases outcome with
    | alreadyProcessed => exact tidy_pure _
    | noVaultRow => exact tidy_fail _
    | paid vaultId frozen =>
      dsimp only
      split
      · exact tidy_pure _
      · exact tidy_bind (tidy_recordEvent rfl) fun _ =>
          tidy_logged (tidy_notifyTrustedContactOfPanic vaultId)

theorem meets_exec_settle {i : InvoiceRow} {st : Stmt} (heard : Heard h (.exec st) i)
    (settles : settles? (.exec st) = some i.paymentHash) :
    Meets (fun g e => Minds S .pollerTick g e.action) (fun g _ => Round h i.paymentHash g)
      (exec st) h := by
  refine meets_settle heard settles fun r => ?_
  cases r with
  | ok n => exact tidy_pure _
  | error e => exact tidy_fail _

/-- The rounds still to come are about other invoices. -/
theorem meets_pollInvoices (t : Instant) {whole : List InvoiceRow} :
    ∀ (rows past : List InvoiceRow) (h : Hist), whole = past ++ rows →
      Read h .pendingInvoices whole →
      ((whole.map InvoiceRow.paymentHash).Nodup →
        ∀ i ∈ rows, ∀ e ∈ h, settles? e.action ≠ some i.paymentHash) →
      Meets (fun g e => Minds S .pollerTick g e.action) (fun _ _ => True) (pollInvoices S t rows) h
  | [], _, _, _, _, _ => trivial
  | i :: rest, past, h, split, read, unsettled => by
    have listed : i ∈ whole := by simp [split]
    -- what has happened in this round leaves the next ones to do
    have again : ∀ g, Round h i.paymentHash g →
        Meets (fun g e => Minds S .pollerTick g e.action) (fun _ _ => True)
          (pollInvoices S t rest) g := by
      rintro g ⟨more, rfl, spares⟩
      refine meets_pollInvoices t rest (past ++ [i]) _ (by simp [split])
        (List.mem_append_left _ read) fun nodup j mem e mem' same => ?_
      rcases List.mem_append.1 mem' with old | new
      · exact unsettled nodup j (List.mem_cons_of_mem _ mem) e old same
      · have other := spares e new _ same
        rw [split, List.map_append, List.map_cons, List.nodup_append] at nodup
        have apart := (List.nodup_cons.1 nodup.2.1).1
        exact apart (other ▸ List.mem_map_of_mem mem)
    refine fun polled => ⟨minds_of_bystander rfl, ?_⟩
    cases polled with
    | error e => trivial
    | ok n =>
      refine fun answer => ⟨minds_of_bystander rfl, ?_⟩
      have asked : Round h i.paymentHash
          (h ++ [(⟨.exec (.invoicePolled i.paymentHash t), .ok n⟩ : Ev)] ++
            [⟨.ask (.invoiceStatus i.paymentHash), answer⟩]) := by
        refine ⟨_, List.append_assoc _ _ _, fun e mem => ?_⟩
        simp only [List.cons_append, List.nil_append, List.mem_cons, List.not_mem_nil,
          or_false] at mem
        rcases mem with rfl | rfl <;> exact spares_of_bystander rfl
      have heard : ∀ status a, answer = .ok status → Follows i status a →
          Heard (h ++ [(⟨.exec (.invoicePolled i.paymentHash t), .ok n⟩ : Ev)] ++
            [⟨.ask (.invoiceStatus i.paymentHash), answer⟩]) a i := by
        rintro status a rfl follows
        refine ⟨h ++ [⟨.exec (.invoicePolled i.paymentHash t), .ok n⟩], [], status, whole,
          rfl, List.mem_append_left _ read, listed, follows, fun nodup e mem same => ?_⟩
        simp only [List.append_assoc, List.cons_append, List.nil_append, List.mem_append,
          List.mem_cons, List.not_mem_nil, or_false] at mem
        rcases mem with old | rfl | rfl
        · exact unsettled nodup i List.mem_cons_self e old same
        · cases same
        · cases same
      generalize h ++ [(⟨.exec (.invoicePolled i.paymentHash t), .ok n⟩ : Ev)] ++
        [⟨.ask (.invoiceStatus i.paymentHash), answer⟩] = g at asked heard ⊢
      have onwards : ∀ p : Prog Unit, Meets (fun g e => Minds S .pollerTick g e.action)
          (fun g' _ => Round g i.paymentHash g') p g →
          Meets (fun g e => Minds S .pollerTick g e.action) (fun _ _ => True)
            (p.bind fun _ => pollInvoices S t rest) g := fun p settled =>
        Meets.bind settled (fun g' _ _ round => again g' (asked.trans round)) fun _ _ _ _ => trivial
      cases answer with
      | error e =>
        cases e with
        | notConfigured => trivial
        | _ => exact again _ asked
      | ok status =>
        cases status with
        | paid =>
          change Meets _ _ (ite _ _ _) _
          split
          · next panic =>
            exact onwards _ (meets_logged (meets_markPanicPaid fun t =>
              heard _ _ rfl (.panic t panic)))
          · next other =>
            have checkin : i.invoiceType = .checkin := by
              cases type : i.invoiceType with
              | checkin => rfl
              | panic => exact absurd type other
            exact onwards _ (meets_logged (meets_markPaidAndCheckin fun t =>
              heard _ _ rfl (.checkin t checkin)))
        | expired =>
          exact onwards _ (meets_logged (meets_exec_settle (heard _ _ rfl .expired) rfl))
        | failed reason =>
          exact onwards _ (meets_logged (meets_exec_settle (heard _ _ rfl (.failed reason)) rfl))
        | pending => exact again _ asked

theorem meets_pollerTick :
    Meets (fun g e => Minds S .pollerTick g e.action) (fun _ _ => True) (pollerTick S) [] := by
  unfold pollerTick
  split
  · trivial
  · refine fun t => ⟨minds_of_bystander rfl, fun expired =>
      ⟨minds_expireInvoices, ?_⟩⟩
    cases expired with
    | error e => trivial
    | ok n =>
      refine fun rows => ⟨minds_of_bystander rfl, ?_⟩
      cases rows with
      | error e => trivial
      | ok rows =>
        refine meets_pollInvoices t rows [] _ rfl (List.mem_append_right _ List.mem_cons_self)
          fun _ i _ e mem same => ?_
        simp only [List.nil_append, List.cons_append, List.mem_cons, List.not_mem_nil,
          or_false] at mem
        rcases mem with rfl | rfl | rfl <;> cases same

end Poller

/-! ## §3 The requests that mint -/

section Mint

/-- The thread has written the invoice down. -/
def Wrote (h : Hist) (i : InvoiceRow) : Prop :=
  ∃ n, (⟨.exec (.insertInvoice i), .ok n⟩ : Ev) ∈ h

theorem meets_insertInvoice {v : VaultId} {type : InvoiceType} {invoice : CreatedInvoice}
    (asksFor : AsksFor q v type)
    (minted : (⟨.ask (.createInvoice S.heartbeatAmountSat
      ("ghostkey:" ++ type.name ++ ":" ++ v)), .ok invoice⟩ : Ev) ∈ h) :
    Meets (fun g e => Minds S q g e.action) (fun g r => ∀ i, r = .ok i →
      i.bolt11 = invoice.bolt11 ∧ Wrote g i) (insertInvoice v invoice type) h := by
  refine fun t => ⟨minds_of_bystander rfl, fun res => ⟨minds_insertInvoice
    ⟨asksFor, invoice, t, List.mem_append_left _ minted, rfl⟩, ?_⟩⟩
  cases res with
  | error e => exact fun i same => by cases same
  | ok n =>
    rintro _ ⟨⟩
    exact ⟨rfl, n, by simp⟩

theorem checkin_description (v : VaultId) :
    "ghostkey:checkin:" ++ v = "ghostkey:" ++ InvoiceType.checkin.name ++ ":" ++ v := by
  have closed : "ghostkey:" ++ InvoiceType.checkin.name ++ ":" = "ghostkey:checkin:" := by decide
  rw [closed]

theorem meets_mintCheckinInvoice {v : VaultId} (asksFor : AsksFor q v .checkin) :
    Meets (fun g e => Minds S q g e.action) (fun g r => ∀ i, r = .ok i → Wrote g i)
      (mintCheckinInvoice S v) h := by
  unfold mintCheckinInvoice
  rw [checkin_description]
  refine fun answer => ⟨minds_of_bystander rfl, ?_⟩
  cases answer with
  | error e => exact fun i same => by cases same
  | ok invoice =>
    change Meets _ _ (Program.bind (insertInvoice v invoice .checkin) _) _
    refine Meets.bind (meets_insertInvoice asksFor
      (List.mem_append_right _ List.mem_cons_self)) ?_ fun _ _ _ _ i same => by cases same
    intro g i _ wrote
    refine Meets.bind (minds_and_adds (tidy_recordEvent rfl) g) ?_
      fun _ _ _ _ i same => by cases same
    rintro g' _ - ⟨more, rfl⟩ _ ⟨⟩
    obtain ⟨-, n, mem⟩ := wrote i rfl
    exact ⟨n, List.mem_append_left _ mem⟩

theorem meets_createCheckinInvoice {v : VaultId} (asksFor : AsksFor q v .checkin) :
    Meets (fun g e => Minds S q g e.action) (fun g r => ∀ i, r = .ok i → Wrote g i)
      (createCheckinInvoice S v) h := by
  have failed : ∀ (e : ApiError) (g : Hist) (i : InvoiceRow),
      (Except.error e : Except ApiError InvoiceRow) = .ok i → Wrote g i := fun e g i same => by
    cases same
  refine fun cad => ⟨minds_of_bystander rfl, ?_⟩
  cases cad with
  | error e => exact failed _ _
  | ok cad =>
    change Meets _ _ (ite _ _ _) _
    split
    · exact failed _ _
    · split
      · exact failed _ _
      · split
        · exact failed _ _
        · cases cad with
          | none => exact meets_mintCheckinInvoice asksFor
          | some r =>
            dsimp only
            split
            · exact meets_mintCheckinInvoice asksFor
            · refine fun t => ⟨minds_of_bystander rfl, ?_⟩
              change Meets _ _
                (Program.bind (oncePerPeriod S r t) fun _ => mintCheckinInvoice S v) _
              exact Meets.bind (minds_of_tidy (tidy_oncePerPeriod r t) _)
                (fun _ _ _ _ => meets_mintCheckinInvoice asksFor) fun _ _ _ _ => failed _ _

/-- The invoice behind a reply: just written down, or found in the table. -/
def Behind (q : Request) (h : Hist) (i : InvoiceRow) : Prop :=
  Wrote h i ∨ ∃ (v : VaultId) (type : InvoiceType) (t : Instant), AsksFor q v type ∧
    (⟨.now, t⟩ : Ev) ∈ h ∧ Read h (.reusableInvoice v type t) (some i)

/-- What a reply hands out is an invoice. -/
def Handed (q : Request) (h : Hist) : Reply → Prop
  | .invoice i => Behind q h i
  | .lnurl (.payResponse bolt11) => ∃ i, i.bolt11 = bolt11 ∧ Behind q h i
  | _ => True

/-- The end of the callback. -/
theorem meets_handOut {v : VaultId} {type : InvoiceType} {invoice : CreatedInvoice}
    {detail : Detail} (asksFor : AsksFor q v type)
    (minted : (⟨.ask (.createInvoice S.heartbeatAmountSat
      ("ghostkey:" ++ type.name ++ ":" ++ v)), .ok invoice⟩ : Ev) ∈ h) :
    Meets (fun g e => Minds S q g e.action)
      (fun g r => ∀ rep, r = .ok rep → Handed q g (.lnurl rep))
      (do
        let inserted ←
          ((insertInvoice v invoice type).attempt : Prog (Except ApiError InvoiceRow))
        match inserted with
        | .error _ => pure (.error "internal")
        | .ok _ => do
          logged (recordEvent v .lightningInvoiceIssued detail)
          pure (.payResponse invoice.bolt11)) h := by
  -- an invoice that could not be stored is answered with an error
  refine Meets.bind (Q := fun g r => ∀ inserted, r = .ok inserted → ∀ i, inserted = .ok i →
    i.bolt11 = invoice.bolt11 ∧ Wrote g i)
    (Meets.attempt (meets_insertInvoice asksFor minted) ?_) ?_ fun _ _ _ _ rep same => by cases same
  · rintro g r inserted _ ⟨⟩
    exact inserted
  intro g inserted _ wrote
  cases inserted with
  | error e =>
    rintro _ ⟨⟩
    trivial
  | ok i =>
    refine Meets.bind (minds_and_adds (tidy_logged (tidy_recordEvent rfl)) g) ?_
      fun _ _ _ _ rep same => by cases same
    rintro g' _ - ⟨more, rfl⟩ _ ⟨⟩
    obtain ⟨text, n, mem⟩ := wrote _ rfl i rfl
    exact ⟨i, text, .inl ⟨n, List.mem_append_left _ mem⟩⟩

theorem meets_lnurlpCallback {v : VaultId} {amount : Option ℕ} {isPanic : Bool}
    (asksFor : AsksFor q v (if isPanic then .panic else .checkin)) :
    Meets (fun g e => Minds S q g e.action)
      (fun g r => ∀ rep, r = .ok rep → Handed q g (.lnurl rep))
      (lnurlpCallback S v amount isPanic) h := by
  -- every refusal is an answer in the wallet's own form
  have refused : ∀ (text : String) (g : Hist) (rep : LnurlReply),
      (Except.ok (.error text) : Except ApiError LnurlReply) = .ok rep →
        Handed q g (.lnurl rep) := by
    rintro text g _ ⟨⟩
    trivial
  refine fun found => ⟨minds_of_bystander rfl, ?_⟩
  cases found with
  | error e => exact refused _ _
  | ok found =>
    cases found with
    | none => exact refused _ _
    | some r =>
      change Meets _ _ (ite _ _ _) _
      split
      · exact refused _ _
      · split
        · exact refused _ _
        · cases amount with
          | none => exact refused _ _
          | some amount =>
            change Meets _ _ (ite _ _ _) _
            split
            · exact refused _ _
            · refine fun t => ⟨minds_of_bystander rfl, fun existing =>
                ⟨minds_of_bystander rfl, ?_⟩⟩
              cases existing with
              | error e => exact refused _ _
              | ok existing =>
                cases existing with
                -- a pending invoice is handed out again
                | some i =>
                  rintro _ ⟨⟩
                  exact ⟨i, rfl, .inr ⟨v, _, t, asksFor,
                    List.mem_append_left _ (List.mem_append_right _ List.mem_cons_self),
                    List.mem_append_right _ List.mem_cons_self⟩⟩
                | none =>
                  refine fun answer => ⟨minds_of_bystander rfl, ?_⟩
                  cases answer with
                  | error e => exact refused _ _
                  | ok invoice =>
                    exact meets_handOut asksFor (List.mem_append_right _ List.mem_cons_self)

end Mint

/-! ## §4 Every request -/

section Requests

theorem guards_isBystander : Guards isBystander := fun _ _ => rfl

theorem ticks_isBystander : Ticks isBystander where
  reminders := ⟨fun _ _ => rfl, fun _ _ => rfl⟩
  alarms _ _ := rfl
  escalations := ⟨fun _ _ => rfl, fun _ _ => rfl⟩
  notices := ⟨fun _ _ => rfl, fun _ _ => rfl⟩
  gate _ _ := rfl

theorem tidy_aside (S : Server) {q : Request} (aside : q.writesInvoices = false) :
    Tidy S isBystander (q.program S) := by
  cases q with
  | schedulerTick => exact tidy_reply _ (tidy_tickOnce ticks_isBystander)
  | createVaultGuardian req => exact tidy_reply _ (tidy_createVaultGuardian guards_isBystander req)
  | _ => exact tidy_everyday (fun same => by cases same) (fun req same => by cases same) aside

theorem meets_reply {α : Type} {p : Prog α} {wrap : α → Reply} {P : Hist → Ev → Prop}
    {Q : Hist → Reply → Prop}
    (meets : Meets P (fun g r => ∀ a, r = .ok a → Q g (wrap a)) p h) :
    Meets P (fun g r => ∀ rep, r = .ok rep → Q g rep) (p.reply wrap) h := by
  refine Meets.bind meets ?_ fun _ _ _ _ rep same => by cases same
  rintro g a _ good _ ⟨⟩
  exact good a rfl

/-- Replies to other requests hand out nothing. -/
theorem handed_aside {q : Request} (aside : q.writesInvoices = false) :
    Meets (fun _ _ => True) (fun g r => ∀ rep, r = .ok rep → Handed q g rep)
      (q.program S) [] := by
  cases q <;> first
    | exact meets_reply (Q := fun g rep => Handed _ g rep)
        (Meets.mono (Meets.grows _ _) (fun _ _ _ => trivial) fun _ _ _ _ _ => trivial)
    | cases aside

theorem minds_request {q : Request} :
    Meets (fun g e => Minds S q g e.action) (fun g r => ∀ rep, r = .ok rep → Handed q g rep)
      (q.program S) [] := by
  cases q with
  | createInvoice v =>
    refine meets_reply (Q := fun g rep => Handed _ g rep) (Meets.mono (meets_createCheckinInvoice
      (.inl ⟨rfl, .inl rfl⟩)) (fun _ _ minds => minds) fun g r wrote i same => ?_)
    exact .inl (wrote i same)
  | createInvoiceFromLink v token =>
    refine meets_reply (Q := fun g rep => Handed _ g rep) ?_
    refine Meets.bind (minds_of_tidy (tidy_verifyCheckinLinkToken v token) _) ?_
      fun _ _ _ _ rep same => by cases same
    intro g _ _ _
    refine Meets.mono (meets_createCheckinInvoice (.inl ⟨rfl, .inr ⟨token, rfl⟩⟩))
      (fun _ _ minds => minds) fun g r wrote i same => ?_
    exact .inl (wrote i same)
  | lnurlpCallback v amount isPanic =>
    exact meets_reply (Q := fun g rep => Handed _ g rep)
      (meets_lnurlpCallback (.inr ⟨amount, isPanic, rfl, rfl⟩))
  | pollerTick =>
    refine meets_reply (Q := fun g rep => Handed _ g rep)
      (Meets.mono meets_pollerTick (fun _ _ minds => minds) fun _ _ _ _ _ => trivial)
  | _ =>
    exact Meets.mono (Meets.and (minds_of_tidy (tidy_aside S rfl) _) (handed_aside rfl))
      (fun _ _ both => both.1) fun _ _ both => both.2

end Requests

end Invoices

end GhostKey
