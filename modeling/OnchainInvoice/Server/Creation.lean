import OnchainInvoice.Server.Effects
import OnchainInvoice.Server.Routes

/-!
# Creating invoices under idempotency keys

A creation waits for the address of its invoice, so other requests come between its checks and its
row.  The keys are those of the whole server, and what a key is bound to is not compared with what
the next request asks for.
-/

namespace OnchainInvoice.Server

open Lib.Revert Lib.Runs Lib.Tables Table

/-! ## Runs of creations -/

-- `paySessionId` is that of the body if it is a string.
structure Creation where
  body : Body
  paySessionId : Option String
  idempotencyKey : Option String
  seed : String

def Creation.input (request : Creation) (prepared : Prepared) (invoiceAddress : Option String) :
    CreateInvoice :=
  prepared.create invoiceAddress request.paySessionId request.idempotencyKey

-- A successful response and the request that received it.
structure Answer where
  request : Creation
  prepared : Prepared
  invoice : Invoice
  created : Bool

-- The requests that wait for an address, and the responses so far.
structure Desk where
  db : CommerceDb
  waiting : List (Creation × Prepared)
  answers : List Answer

def Desk.start : Desk := ⟨⟨Table.empty, fun _ => none⟩, [], []⟩

-- Requests arrive, and get their address in any order; sweepers call in between.
inductive Event
  | arrives (request : Creation)
  | resolved (i : Nat) (invoiceAddress : Except HttpError (Option String)) (now : Time)
  | called (call : Call)

variable (env : Env)

def handle (desk : Desk) : Event → Except HttpError Desk
  | .arrives request => do
    let prepared ← prepare env request.body request.seed
    return { desk with waiting := desk.waiting ++ [(request, prepared)] }
  | .resolved i invoiceAddress now => do
    let (request, prepared) ← orRevert (thrown "no such request") desk.waiting[i]?
    let create := do
      createInvoice desk.db (request.input prepared (← invoiceAddress)) now
    match create with
    | .ok ((invoice, created), db) =>
      return ⟨db, desk.waiting.eraseIdx i, desk.answers ++ [⟨request, prepared, invoice, created⟩]⟩
    | .error _ =>
      return { desk with waiting := desk.waiting.eraseIdx i }
  | .called call => do
    let db ← step desk.db call
    return { desk with db := db }

/-! ## What is asked for and what is made -/

structure Terms where
  recipient : Option String
  priceUsd : String
  chainId : Option String
  token : Option String
deriving DecidableEq, Repr

def Prepared.terms (p : Prepared) : Terms :=
  ⟨some p.selectedTo, p.fields.price, some p.chainId, some p.token⟩

def Invoice.terms (invoice : Invoice) : Terms :=
  ⟨invoice.selectedTo, invoice.priceUsd, invoice.chainId, invoice.token⟩

@[simp] theorem terms_newInvoice (request : Creation) (p : Prepared) (invoiceAddress : Option String)
    (seed : String) (now : Time) :
    (newInvoice (request.input p invoiceAddress) seed now).terms = p.terms := rfl

theorem terms_update (c : Call) (invoice : Invoice) : (c.update invoice).terms = invoice.terms := by
  cases c <;> rfl

-- No key is empty, and requests with one key ask for the same.
structure KeysAgree (events : List Event) : Prop where
  given : ∀ request, .arrives request ∈ events → request.idempotencyKey ≠ some ""
  agree : ∀ request request' key, .arrives request ∈ events → .arrives request' ∈ events →
    request.idempotencyKey = some key → request'.idempotencyKey = some key →
      ∀ p p', prepare env request.body request.seed = .ok p →
        prepare env request'.body request'.seed = .ok p' → p.terms = p'.terms

/-! ## What a key is bound to -/

def Answer.under (key : String) (a : Answer) : Bool := a.request.idempotencyKey = some key

-- The request has come in, and this is what became of it.
structure Asked (events : List Event) (request : Creation) (prepared : Prepared) : Prop where
  arrived : .arrives request ∈ events
  prepared : prepare env request.body request.seed = .ok prepared

structure Bound (events : List Event) (desk : Desk) : Prop where
  waiting : ∀ x ∈ desk.waiting, Asked env events x.1 x.2
  asked : ∀ a ∈ desk.answers, Asked env events a.request a.prepared
  terms : ∀ a ∈ desk.answers, a.invoice.terms = a.prepared.terms
  rows : desk.db.invoices.rows.map Invoice.id =
    (desk.answers.filter Answer.created).map fun a => a.invoice.id
  bound : ∀ key id, desk.db.idempotencyKeys key = some id →
    ∃ invoice, desk.db.invoices.find? id = some invoice ∧
      ∃ a ∈ desk.answers, a.under key = true ∧ invoice.terms = a.prepared.terms
  keyed : ∀ a ∈ desk.answers, ∀ key, a.under key = true →
    desk.db.idempotencyKeys key = some a.invoice.id
  once : ∀ key id, desk.db.idempotencyKeys key = some id →
    desk.answers.countP (fun a => a.under key && a.created) = 1

variable {env} {events : List Event} {desk desk' : Desk} {db' : CommerceDb}

theorem Bound.start : Bound env events .start where
  waiting _ hx := absurd hx List.not_mem_nil
  asked _ ha := absurd ha List.not_mem_nil
  terms _ ha := absurd ha List.not_mem_nil
  rows := rfl
  bound _ id h := absurd h.symm (Option.some_ne_none id)
  keyed _ ha := absurd ha List.not_mem_nil
  once _ id h := absurd h.symm (Option.some_ne_none id)

theorem Bound.arrives {request : Creation} {prepared : Prepared} (h : Bound env events desk)
    (hasked : Asked env events request prepared) :
    Bound env events { desk with waiting := desk.waiting ++ [(request, prepared)] } where
  waiting := List.forall_mem_append.mpr ⟨h.waiting, List.forall_mem_singleton.mpr hasked⟩
  asked := h.asked
  terms := h.terms
  rows := h.rows
  bound := h.bound
  keyed := h.keyed
  once := h.once

theorem Bound.eraseIdx (h : Bound env events desk) (i : Nat) :
    Bound env events { desk with waiting := desk.waiting.eraseIdx i } where
  waiting x hx := h.waiting x (List.mem_of_mem_eraseIdx hx)
  asked := h.asked
  terms := h.terms
  rows := h.rows
  bound := h.bound
  keyed := h.keyed
  once := h.once

theorem Bound.called {c : Call} (h : Bound env events desk) (hok : step desk.db c = .ok db') :
    Bound env events { desk with db := db' } := by
  obtain ⟨row, hrow, -, hdb⟩ := step_eq_ok.mp hok
  have hkeys : db'.idempotencyKeys = desk.db.idempotencyKeys := by rw [← hdb]
  refine ⟨h.waiting, h.asked, h.terms, ?_, ?_, ?_, ?_⟩
  · show db'.invoices.rows.map Invoice.id = _
    rw [← h.rows, ← hdb]
    exact map_key_modify c.invoiceId (id_update c) desk.db.invoices.rows
  · intro key id hkey
    rw [hkeys] at hkey
    obtain ⟨invoice, hinvoice, a, ha, hunder, hterms⟩ := h.bound key id hkey
    obtain ⟨row', hrow', -, hfind⟩ := find?_step hok id
    by_cases hid : id = c.invoiceId
    · rw [if_pos hid] at hfind
      have hsame : invoice = row' := by
        rw [hid] at hinvoice
        exact Option.some.inj (hinvoice.symm.trans hrow')
      refine ⟨_, hfind, a, ha, hunder, ?_⟩
      rw [terms_update, ← hsame]
      exact hterms
    · rw [if_neg hid] at hfind
      exact ⟨invoice, hfind.trans hinvoice, a, ha, hunder, hterms⟩
  · intro a ha key hunder
    rw [hkeys]
    exact h.keyed a ha key hunder
  · intro key id hkey
    rw [hkeys] at hkey
    exact h.once key id hkey

theorem prior_eq_some {db : CommerceDb} {input : CreateInvoice} {invoice : Invoice} :
    prior db input = some invoice ↔
      ∃ key id, givenKey input = some key ∧ db.idempotencyKeys key = some id ∧
        getInvoice db id = some invoice := by
  unfold prior
  rw [Option.bind_eq_some_iff]
  apply Iff.intro
  · rintro ⟨id, hid, hinvoice⟩
    obtain ⟨key, hkey, hid⟩ := Option.bind_eq_some_iff.mp hid
    exact ⟨key, id, hkey, hid, hinvoice⟩
  · rintro ⟨key, id, hkey, hid, hinvoice⟩
    exact ⟨id, Option.bind_eq_some_iff.mpr ⟨key, hkey, hid⟩, hinvoice⟩

theorem givenKey_input {request : Creation} {prepared : Prepared} {invoiceAddress : Option String}
    (h : request.idempotencyKey ≠ some "") :
    givenKey (request.input prepared invoiceAddress) = request.idempotencyKey := by
  show request.idempotencyKey.filter _ = request.idempotencyKey
  cases hkey : request.idempotencyKey with
  | none => rfl
  | some key =>
    have hne : key ≠ "" := fun hempty => h (hkey.trans (congrArg some hempty))
    exact if_pos (decide_eq_true hne)

variable {request : Creation} {prepared : Prepared} {invoice : Invoice}
  {invoiceAddress : Option String} {now : Time}

/-- A response with the invoice the key is bound to. -/
theorem Bound.again (h : Bound env events desk) (hagree : KeysAgree env events)
    (hasked : Asked env events request prepared)
    (hprior : prior desk.db (request.input prepared invoiceAddress) =
      some invoice) :
    Bound env events
      { desk with answers := desk.answers ++ [⟨request, prepared, invoice, false⟩] } := by
  obtain ⟨key, id, hgiven, hid, hinvoice⟩ := prior_eq_some.mp hprior
  rw [givenKey_input (hagree.given request hasked.arrived)] at hgiven
  obtain ⟨row, hrow, a, ha, hunder, hterms⟩ := h.bound key id hid
  have hsame : row = invoice :=
    Option.some.inj ((getInvoice_of_find? hrow).symm.trans hinvoice)
  have hkey : a.request.idempotencyKey = some key := of_decide_eq_true hunder
  have hasked' := h.asked a ha
  have hfields : a.prepared.terms = prepared.terms :=
    hagree.agree a.request request key hasked'.arrived hasked.arrived hkey hgiven _ _
      hasked'.prepared hasked.prepared
  refine ⟨h.waiting, ?_, ?_, ?_, ?_, ?_, ?_⟩
  · exact List.forall_mem_append.mpr ⟨h.asked, List.forall_mem_singleton.mpr hasked⟩
  · refine List.forall_mem_append.mpr ⟨h.terms, List.forall_mem_singleton.mpr ?_⟩
    show invoice.terms = prepared.terms
    rw [← hsame, hterms, hfields]
  · rw [List.filter_append, List.map_append]
    exact h.rows.trans (List.append_nil _).symm
  · intro key' id' hid'
    obtain ⟨row', hrow', b, hb, hb'⟩ := h.bound key' id' hid'
    exact ⟨row', hrow', b, List.mem_append_left _ hb, hb'⟩
  · intro b hb key' hunder'
    rcases List.mem_append.mp hb with hold | hnew
    · exact h.keyed b hold key' hunder'
    · rw [List.mem_singleton.mp hnew] at hunder' ⊢
      have hsome : some key = some key' := hgiven.symm.trans (of_decide_eq_true hunder')
      rw [← Option.some.inj hsome, ← hsame, key_of_find? hrow]
      exact hid
  · intro key' id' hid'
    rw [List.countP_append, h.once key' id' hid']
    simp

theorem bindKey_create (h : request.idempotencyKey ≠ some "")
    (hfree : ∀ key, request.idempotencyKey = some key → desk.db.idempotencyKeys key = none)
    (key : String) :
    bindKey desk.db (request.input prepared invoiceAddress) key =
      if request.idempotencyKey = some key then some prepared.invoiceId
      else desk.db.idempotencyKeys key := by
  unfold bindKey
  rw [givenKey_input h]
  cases hgiven : request.idempotencyKey with
  | none => rfl
  | some key' =>
    dsimp only
    rw [hfree key' hgiven, if_neg (by simp), Function.update_apply]
    simp only [Option.some.injEq, eq_comm]
    rfl

/-- A key that answers no request is not bound to an invoice. -/
theorem Bound.free (h : Bound env events desk) (hgiven : request.idempotencyKey ≠ some "")
    (hprior : prior desk.db (request.input prepared invoiceAddress) = none) :
    ∀ key, request.idempotencyKey = some key → desk.db.idempotencyKeys key = none := by
  intro key hkey
  cases hbound : desk.db.idempotencyKeys key with
  | none => rfl
  | some id =>
    obtain ⟨row, hrow, -⟩ := h.bound key id hbound
    have hsome :
        prior desk.db (request.input prepared invoiceAddress) = some row :=
      prior_eq_some.mpr
        ⟨key, id, (givenKey_input hgiven).trans hkey, hbound, getInvoice_of_find? hrow⟩
    exact absurd (hprior.symm.trans hsome) (Option.some_ne_none row).symm

theorem Bound.unanswered {key : String} (h : Bound env events desk)
    (hfree : desk.db.idempotencyKeys key = none) : ∀ a ∈ desk.answers, a.under key = false := by
  intro a ha
  rw [← Bool.not_eq_true]
  intro hunder
  exact absurd (hfree.symm.trans (h.keyed a ha key hunder)) (by simp)

/-- A response with a new invoice. -/
theorem Bound.anew {invoices : Table Invoice String Invoice.id} {seed : String}
    (h : Bound env events desk) (hagree : KeysAgree env events)
    (hasked : Asked env events request prepared)
    (hprior : prior desk.db (request.input prepared invoiceAddress) = none)
    (hinvoice : newInvoice (request.input prepared invoiceAddress) seed now =
      invoice)
    (hinvoices : desk.db.invoices.insert invoice = some invoices) :
    Bound env events
      { desk with
        db := ⟨invoices, bindKey desk.db (request.input prepared invoiceAddress)⟩
        answers := desk.answers ++ [⟨request, prepared, invoice, true⟩] } := by
  have hgiven := hagree.given request hasked.arrived
  have hid : invoice.id = prepared.invoiceId := by rw [← hinvoice]; rfl
  have hterms : invoice.terms = prepared.terms := by rw [← hinvoice, terms_newInvoice]
  have hfree := h.free hgiven hprior
  refine ⟨h.waiting, ?_, ?_, ?_, ?_, ?_, ?_⟩
  · exact List.forall_mem_append.mpr ⟨h.asked, List.forall_mem_singleton.mpr hasked⟩
  · exact List.forall_mem_append.mpr ⟨h.terms, List.forall_mem_singleton.mpr hterms⟩
  · rw [List.filter_append, List.map_append, rows_insert hinvoices, List.map_append, h.rows]
    rfl
  · intro key id hkey
    dsimp only at hkey ⊢
    rw [bindKey_create hgiven hfree] at hkey
    split at hkey
    · rename_i hself
      rw [← hid] at hkey
      cases hkey
      exact ⟨invoice, (find?_insert hinvoices).trans (if_pos rfl), _,
        List.mem_append_right _ (List.mem_singleton_self _), decide_eq_true hself, hterms⟩
    · obtain ⟨row, hrow, a, ha, ha'⟩ := h.bound key id hkey
      have hother : invoice.id ≠ id := by
        rintro rfl
        exact absurd ((find?_of_insert hinvoices).symm.trans hrow) (by simp)
      exact ⟨row, (find?_insert hinvoices).trans ((if_neg hother).trans hrow), a,
        List.mem_append_left _ ha, ha'⟩
  · intro b hb key hkey
    dsimp only
    rw [bindKey_create hgiven hfree]
    rcases List.mem_append.mp hb with hold | hnew
    · have hother : request.idempotencyKey ≠ some key := by
        intro hself
        rw [h.unanswered (hfree key hself) b hold] at hkey
        exact absurd hkey Bool.false_ne_true
      rw [if_neg hother]
      exact h.keyed b hold key hkey
    · rw [List.mem_singleton.mp hnew] at hkey ⊢
      rw [if_pos (of_decide_eq_true hkey), ← hid]
  · intro key id hkey
    dsimp only at hkey ⊢
    rw [bindKey_create hgiven hfree] at hkey
    rw [List.countP_append]
    split at hkey
    · rename_i hself
      have hnone : desk.answers.countP (fun a => a.under key && a.created) = 0 := by
        apply List.countP_eq_zero.mpr
        intro a ha
        simp [h.unanswered (hfree key hself) a ha]
      rw [hnone]
      simp [Answer.under, hself]
    · rename_i hother
      rw [h.once key id hkey]
      simp [Answer.under, hother]

theorem Bound.handle {e : Event} (hagree : KeysAgree env events) (he : e ∈ events)
    (h : Bound env events desk) (hok : handle env desk e = .ok desk') : Bound env events desk' := by
  cases e with
  | arrives request =>
    unfold Server.handle at hok
    simp only [bind_eq_ok, pure_eq_ok] at hok
    obtain ⟨prepared, hprepared, rfl⟩ := hok
    exact h.arrives ⟨he, hprepared⟩
  | resolved i invoiceAddress now =>
    unfold Server.handle at hok
    simp only [bind_eq_ok, orRevert_eq_ok] at hok
    obtain ⟨⟨request, prepared⟩, hwaiting, hok⟩ := hok
    have hasked := h.waiting _ (List.mem_of_getElem? hwaiting)
    split at hok
    · rename_i invoice created db hcreate
      rw [← pure_eq_ok.mp hok]
      obtain ⟨address, -, hcreate⟩ := bind_eq_ok.mp hcreate
      generalize hanswer : (invoice, created) = answer at hcreate
      cases createInvoice_eq_ok hcreate with
      | again hprior =>
        cases hanswer
        exact (h.again hagree hasked hprior).eraseIdx i
      | anew hprior hinvoices =>
        cases hanswer
        exact (h.anew hagree hasked hprior rfl hinvoices).eraseIdx i
    · rw [← pure_eq_ok.mp hok]
      exact h.eraseIdx i
  | called call =>
    unfold Server.handle at hok
    simp only [bind_eq_ok, pure_eq_ok] at hok
    obtain ⟨db', hstep, rfl⟩ := hok
    exact h.called hstep

/-! ## The whole run -/

-- Every response describes what its request asked for, the rows are those that were created, and
-- the requests with one key created one of them.
structure Idempotent (env : Env) (desk : Desk) : Prop where
  own : ∀ a ∈ desk.answers, ∃ p, prepare env a.request.body a.request.seed = .ok p ∧
    a.invoice.terms = p.terms
  rows : desk.db.invoices.rows.map Invoice.id =
    (desk.answers.filter Answer.created).map fun a => a.invoice.id
  one : ∀ key, (∃ a ∈ desk.answers, a.under key = true) →
    (∃ id, ∀ a ∈ desk.answers, a.under key = true → a.invoice.id = id) ∧
      desk.answers.countP (fun a => a.under key && a.created) = 1

theorem Bound.idempotent (h : Bound env events desk) : Idempotent env desk := by
  refine ⟨?_, h.rows, ?_⟩
  · intro a ha
    exact ⟨a.prepared, (h.asked a ha).prepared, h.terms a ha⟩
  · rintro key ⟨a, ha, hunder⟩
    have hkey := h.keyed a ha key hunder
    refine ⟨⟨a.invoice.id, fun b hb hunder' => ?_⟩, h.once key a.invoice.id hkey⟩
    exact Option.some.inj ((h.keyed b hb key hunder').symm.trans hkey)

/-- Creations stay apart in every run in which no key is empty and requests with one key ask for
the same. -/
theorem creations_idempotent (env : Env) (events : List Event) (hagree : KeysAgree env events) :
    Idempotent env (run (handle env) .start events) :=
  (run_invariant_of_mem (fun _ _ _ he h hok => h.handle hagree he hok) Bound.start).idempotent

/-! ## Two shops with the same order number -/

-- What is asked for does not depend on the seed that is drawn.
theorem terms_of_prepare {body : Body} {seed seed' : String} {p p' : Prepared}
    (h : prepare env body seed = .ok p) (h' : prepare env body seed' = .ok p') :
    p.terms = p'.terms := by
  unfold prepare at h h'
  simp only [bind_eq_ok, orRevert_eq_ok, pure_eq_ok] at h h'
  obtain ⟨-, -, mode, hmode, fields, hfields, -, -, -, -, -, -, -, -, -, -, -, -, recipient,
    hrecipient, id, -, rfl⟩ := h
  obtain ⟨-, -, mode', hmode', fields', hfields', -, -, -, -, -, -, -, -, -, -, -, -, recipient',
    hrecipient', id', -, rfl⟩ := h'
  have hmode : mode = mode' := Except.ok.inj (hmode.symm.trans hmode')
  subst hmode
  have hfields : fields = fields' := Except.ok.inj (hfields.symm.trans hfields')
  subst hfields
  have hrecipient : recipient = recipient' := Except.ok.inj (hrecipient.symm.trans hrecipient')
  subst hrecipient
  rfl

def Env.toy : Env where
  onrampEnabled := false
  evmTokens _ := none
  normalizeMerchantAddress := some
  getAddress := some
  addressesEqual a b := a = b
  looksLikeSolanaAddress _ := false
  isHexAddress address := startsWith address "0x"
  getCommerceInvoiceId seed _ := some seed

-- A shop asks for 25 dollars under the number of the order.
def toyCreation (to_ seed : String) : Creation where
  body name := if name = "price" then some "25" else if name = "to" then some to_ else none
  paySessionId := none
  idempotencyKey := some "wc-order-1042"
  seed := seed

-- Both requests have arrived when the first is answered.
def toyEvents (to_ : String) : List Event :=
  [.arrives (toyCreation "0xA" "s"), .arrives (toyCreation to_ "t"), .resolved 0 (.ok "0xI") 1000,
    .resolved 0 (.ok "0xJ") 2000]

theorem keysAgree_toy : KeysAgree .toy (toyEvents "0xA") := by
  have harrived : ∀ request, .arrives request ∈ toyEvents "0xA" →
      ∃ seed, request = toyCreation "0xA" seed := by
    intro request hrequest
    simp only [toyEvents, List.mem_cons, Event.arrives.injEq, reduceCtorEq, List.not_mem_nil,
      or_false] at hrequest
    rcases hrequest with rfl | rfl
    · exact ⟨"s", rfl⟩
    · exact ⟨"t", rfl⟩
  apply KeysAgree.mk
  · intro request hrequest
    obtain ⟨seed, rfl⟩ := harrived request hrequest
    show some "wc-order-1042" ≠ some ""
    decide
  · intro request request' key hrequest hrequest' _ _ p p' hp hp'
    obtain ⟨seed, rfl⟩ := harrived request hrequest
    obtain ⟨seed', rfl⟩ := harrived request' hrequest'
    exact terms_of_prepare hp hp'

theorem creations_idempotent_toy : Idempotent .toy (run (handle .toy) .start (toyEvents "0xA")) :=
  creations_idempotent .toy (toyEvents "0xA") keysAgree_toy

theorem Idempotent.terms_eq {env : Env} {desk : Desk} (h : Idempotent env desk) :
    ∀ a ∈ desk.answers, (prepare env a.request.body a.request.seed).toOption.map Prepared.terms =
      some a.invoice.terms := by
  intro a ha
  obtain ⟨p, hp, hterms⟩ := h.own a ha
  rw [hp, hterms]
  rfl

/-- The second shop is answered with an invoice that pays the first. -/
theorem paid_to_another_shop :
    ¬Idempotent .toy (run (handle .toy) .start (toyEvents "0xB")) ∧
      ((run (handle .toy) .start (toyEvents "0xB")).answers.map fun a =>
        (a.prepared.selectedTo, a.invoice.selectedTo)) =
          [("0xA", some "0xA"), ("0xB", some "0xA")] :=
  ⟨fun h => absurd h.terms_eq (by decide), by decide⟩

end OnchainInvoice.Server
