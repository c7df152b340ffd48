import OnchainInvoice.Lib.Histories
import OnchainInvoice.Proposals.ProposalRoutes

/-!
# What the signatures of an operation are over

All that a proposal's operation depends on stays as it was created, the nonce apart.  So a stored
signature is over the hash of the operation that is submitted just when the operation has the nonce of
the preparation that the signer had been given.
-/

namespace OnchainInvoice.Proposals

open Lib.Tables Lib.Histories Server

/-! ## Operations -/

-- The same proposal, at another time of its life.
structure WalletProposal.Same (p q : WalletProposal) : Prop where
  id : p.id = q.id
  walletAddress : p.walletAddress = q.walletAddress
  chainId : p.chainId = q.chainId
  target : p.target = q.target
  value : p.value = q.value
  data : p.data = q.data

namespace WalletProposal.Same

variable {p q r : WalletProposal}

theorem refl (p : WalletProposal) : p.Same p := ⟨rfl, rfl, rfl, rfl, rfl, rfl⟩

theorem symm (h : p.Same q) : q.Same p :=
  ⟨h.id.symm, h.walletAddress.symm, h.chainId.symm, h.target.symm, h.value.symm, h.data.symm⟩

theorem trans (h : p.Same q) (h' : q.Same r) : p.Same r :=
  ⟨h.id.trans h'.id, h.walletAddress.trans h'.walletAddress, h.chainId.trans h'.chainId,
    h.target.trans h'.target, h.value.trans h'.value, h.data.trans h'.data⟩

end WalletProposal.Same

def WalletProposal.opNonce (proposal : WalletProposal) : Nat := proposal.nonce.getD 0

section Operations

variable {ethers : Ethers} {config : AppConfig} {p q : WalletProposal} {op : UserOp}
  {signature : String}

/-- Only the nonce and the signature tell the operations of a proposal apart. -/
theorem build_of_same (other : String) (hsame : p.Same q)
    (h : buildProposalUserOp ethers config p signature = some op) :
    buildProposalUserOp ethers config q other =
      some { op with nonce := q.opNonce, signature := other } := by
  simp only [buildProposalUserOp, Option.bind_eq_bind, Option.bind_eq_some_iff, Option.pure_def,
    Option.some.injEq] at h
  obtain ⟨feeToken, hfeeToken, beneficiary, hbeneficiary, feeTarget, hfeeTarget, feeData, hfeeData,
    target, htarget, value, hvalue, callData, hcallData, sender, hsender, rfl⟩ := h
  rw [hsame.chainId] at hfeeToken
  rw [hsame.target] at htarget
  rw [hsame.value] at hvalue
  rw [hsame.data] at hcallData
  rw [hsame.walletAddress] at hsender
  simp only [buildProposalUserOp, hfeeToken, hbeneficiary, hfeeTarget, hfeeData, htarget, hvalue,
    hcallData, hsender, Option.bind_eq_bind, Option.bind_some, Option.pure_def]
  rfl

theorem nonce_of_build (h : buildProposalUserOp ethers config p signature = some op) :
    op.nonce = p.opNonce := by
  have h' := build_of_same signature (WalletProposal.Same.refl p) h
  rw [h] at h'
  exact congrArg UserOp.nonce (Option.some.inj h')

end Operations

/-! ## Signatures -/

section Soundness

-- `message` is the hash that a signature is made over.
variable (ethers : Ethers) (config : AppConfig) (message : String → Nat)

def hashOf (proposal : WalletProposal) : Option Nat :=
  (buildProposalUserOp ethers config proposal "0x").map fun op => op.hash ethers

-- The proposal is in the table, whatever has become of it.
def ProposalDb.Knows (db : ProposalDb) (p : WalletProposal) : Prop :=
  ∃ row, db.proposals.find? p.id = some row ∧ row.Same p

-- The signature is over the hash of the preparation that the signer had been given.
structure SoundAt (db : ProposalDb) (id inner : String) (answered : Option WalletProposal) :
    Prop where
  prepared : ∃ p, answered = some p ∧ p.id = id ∧ db.Knows p ∧
    hashOf ethers config p = some (message inner)

def ProposalDb.Sound (db : ProposalDb) (sig : WalletProposalSig) : Prop :=
  SoundAt ethers config message db sig.proposalId (sig.inner ethers) sig.answered

def WaitingSound (db : ProposalDb) : Waiting → Prop
  | .prepareNonce _ => True
  | .prepareHash prepared => db.Knows prepared
  | .signBody id body answered => SoundAt ethers config message db id
      (unwrapAdvancedInnerSig ethers (trim body.signature) (trim body.keyId)) answered
  | .executeBody proposal => db.Knows proposal
  | .executeNonce proposal sigs _ => db.Knows proposal ∧
      ∀ sig ∈ sigs, db.Sound ethers config message sig ∧ sig.proposalId = proposal.id
  | .executeHash record op packed => db.Knows record ∧
      (∃ signature, buildProposalUserOp ethers config record signature = some op) ∧
      ∀ sig ∈ packed, db.Sound ethers config message sig ∧ sig.proposalId = record.id

structure Consistent (server : ProposalServer) : Prop where
  answered : ∀ id p, server.answered id = some p → p.id = id ∧ server.db.Knows p
  sigs : ∀ sig ∈ server.db.sigs.rows, server.db.Sound ethers config message sig
  waiting : ∀ waiting ∈ server.waiting, WaitingSound ethers config message server.db waiting

-- A signer signs the hash that the latest preparation was answered with.
def Follows (server : ProposalServer) : Event → Prop
  | .sign _ id body => (server.answered id).bind (hashOf ethers config) =
      some (message (unwrapAdvancedInnerSig ethers (trim body.signature) (trim body.keyId)))
  | _ => True

instance (server : ProposalServer) (event : Event) :
    Decidable (Follows ethers config message server event) :=
  match event with
  | .sign .. => inferInstanceAs (Decidable (_ = _))
  | .post .. | .patch .. | .prepare .. | .execute .. | .resume .. => .isTrue trivial

-- The operation that a handler hands over, and the record that it was built from.
def handedOver (answer : Answer) : Waiting → Option (WalletProposal × Submission)
  | .executeHash record op packed =>
    if answer = .userOp (some .free) then some (record, ⟨op, packed⟩) else none
  | _ => none

def submission (server : ProposalServer) : Event → Option (WalletProposal × Submission)
  | .resume n answer => server.waiting[n]?.bind (handedOver answer)
  | _ => none

def Matches (server : ProposalServer) (event : Event) : Prop :=
  ∀ s ∈ submission server event, ∀ sig ∈ s.2.packed, message (sig.inner ethers) = s.2.op.hash ethers

-- No preparation since has stored another nonce for the record.
def Steady (server : ProposalServer) (event : Event) : Prop :=
  ∀ s ∈ submission server event, ∀ sig ∈ s.2.packed,
    sig.answered.map WalletProposal.opNonce = some s.1.opNonce

instance (server : ProposalServer) (event : Event) : Decidable (Matches ethers message server event) :=
  inferInstanceAs (Decidable (∀ s ∈ submission server event, ∀ sig ∈ s.2.packed, _ = _))

instance (server : ProposalServer) (event : Event) : Decidable (Steady server event) :=
  inferInstanceAs (Decidable (∀ s ∈ submission server event, ∀ sig ∈ s.2.packed, _ = _))

-- Hashes of operations that differ in the nonce differ.
def TellsNonces : Prop := ∀ sender callData n m,
  ethers.getUserOpHash sender n callData = ethers.getUserOpHash sender m callData → n = m

end Soundness

section Proofs

variable {ethers : Ethers} {config : AppConfig} {message : String → Nat} {db db' : ProposalDb}
  {server : ProposalServer} {event : Event} {p q : WalletProposal} {sig : WalletProposalSig}

theorem ProposalDb.Knows.same (hp : db.Knows p) (hq : db.Knows q) (hid : p.id = q.id) : p.Same q := by
  obtain ⟨row, hrow, hsame⟩ := hp
  obtain ⟨row', hrow', hsame'⟩ := hq
  rw [hid, hrow'] at hrow
  obtain rfl := Option.some.inj hrow
  exact hsame.symm.trans hsame'

/-- The signature is over the hash of the operation if the nonces agree. -/
theorem message_eq_iff {record : WalletProposal} {op : UserOp} {text : String}
    (hsound : db.Sound ethers config message sig) (hid : sig.proposalId = record.id)
    (hrecord : db.Knows record) (hbuild : buildProposalUserOp ethers config record text = some op) :
    (sig.answered.map WalletProposal.opNonce = some record.opNonce →
      message (sig.inner ethers) = op.hash ethers) ∧
    (TellsNonces ethers → message (sig.inner ethers) = op.hash ethers →
      sig.answered.map WalletProposal.opNonce = some record.opNonce) := by
  obtain ⟨p, hanswered, hp, hknows, hhash⟩ := hsound.prepared
  have hsame : record.Same p := hrecord.same hknows (hid.symm.trans hp.symm)
  have hbuilt := build_of_same "0x" hsame hbuild
  unfold hashOf at hhash
  rw [hbuilt, Option.map_some, Option.some.injEq] at hhash
  have hnonce := nonce_of_build hbuild
  rw [hanswered, Option.map_some, Option.some.injEq, ← hhash, ← hnonce]
  apply And.intro
  · intro heq
    unfold UserOp.hash
    rw [heq]
  · intro htells heq
    exact htells _ _ _ _ heq

/-! ## The table of proposals -/

-- What is in the table stays there with its content.
def ProposalDb.Keeps (db db' : ProposalDb) : Prop := ∀ p, db.Knows p → db'.Knows p

theorem keeps_of_modify {proposals : Table WalletProposal String WalletProposal.id} {id : String}
    {f : WalletProposal → WalletProposal} {hf : ∀ p, (f p).id = p.id}
    (h : proposals = db.proposals.modify id f hf) (hsame : ∀ p, (f p).Same p) :
    db.Keeps { db with proposals := proposals } := by
  rintro p ⟨row, hrow, hp⟩
  subst h
  unfold ProposalDb.Knows
  rw [Table.find?_modify, hrow]
  split
  · exact ⟨f row, rfl, (hsame row).trans hp⟩
  · exact ⟨row, rfl, hp⟩

theorem same_prepare (nonce : Nat) (p : WalletProposal) : (p.prepare nonce).Same p := by
  unfold WalletProposal.prepare
  split
  · exact ⟨rfl, rfl, rfl, rfl, rfl, rfl⟩
  · exact WalletProposal.Same.refl p

theorem keeps_create {id wallet chainId target value data : String} :
    db.Keeps (createWalletProposal db id wallet chainId target value data) := by
  rintro p ⟨row, hrow, hp⟩
  unfold createWalletProposal ProposalDb.Knows
  dsimp only
  cases hinsert : db.proposals.insert ⟨id, lowerCase wallet, chainId, lowerCase target, value, data,
    none, .draft, none⟩ with
  | none => exact ⟨row, hrow, hp⟩
  | some proposals =>
    rw [Option.getD_some, Table.find?_insert hinsert]
    split
    · rename_i hid
      -- the new id is not in use
      have hfree := Table.find?_of_insert hinsert
      rw [hid, hrow] at hfree
      exact absurd hfree (by simp)
    · exact ⟨row, hrow, hp⟩

theorem keeps_txHash {id txHash : String} : db.Keeps (updateWalletProposalTxHash db id txHash) :=
  keeps_of_modify rfl fun _ => ⟨rfl, rfl, rfl, rfl, rfl, rfl⟩

theorem keeps_prepare {id : String} {nonce : Nat} :
    db.Keeps (prepareWalletProposal db id nonce).1 := keeps_of_modify rfl (same_prepare nonce)

theorem knows_prepared {id : String} {nonce : Nat}
    (h : (prepareWalletProposal db id nonce).2 = some p) :
    p.id = id ∧ (prepareWalletProposal db id nonce).1.Knows p := by
  obtain ⟨row, hrow, rfl⟩ := Option.map_eq_some_iff.mp h
  rw [Option.filter_eq_some_iff] at hrow
  have hid : row.id = id := Table.key_of_find? hrow.1
  have hid' : (row.prepare nonce).id = id := (row.id_prepare nonce).trans hid
  refine ⟨hid', row.prepare nonce, ?_, WalletProposal.Same.refl _⟩
  unfold prepareWalletProposal
  dsimp only
  rw [hid', Table.find?_modify, if_pos rfl, hrow.1]
  rfl

/-! ## Steps -/

theorem SoundAt.mono {id inner : String} {answered : Option WalletProposal}
    (h : SoundAt ethers config message db id inner answered) (hkeeps : db.Keeps db') :
    SoundAt ethers config message db' id inner answered := by
  obtain ⟨p, hanswered, hp, hknows, hhash⟩ := h.prepared
  exact ⟨p, hanswered, hp, hkeeps p hknows, hhash⟩

theorem WaitingSound.mono {waiting : Waiting} (h : WaitingSound ethers config message db waiting)
    (hkeeps : db.Keeps db') : WaitingSound ethers config message db' waiting := by
  cases waiting with
  | prepareNonce id => trivial
  | prepareHash prepared => exact hkeeps _ h
  | signBody id body answered => exact SoundAt.mono h hkeeps
  | executeBody proposal => exact hkeeps _ h
  | executeNonce proposal sigs signature =>
    exact ⟨hkeeps _ h.1, fun sig hsig => ⟨(h.2 sig hsig).1.mono hkeeps, (h.2 sig hsig).2⟩⟩
  | executeHash record op packed =>
    exact ⟨hkeeps _ h.1, h.2.1, fun sig hsig =>
      ⟨(h.2.2 sig hsig).1.mono hkeeps, (h.2.2 sig hsig).2⟩⟩

theorem Consistent.withDb (h : Consistent ethers config message server)
    (hkeeps : server.db.Keeps db') (hsigs : db'.sigs = server.db.sigs) :
    Consistent ethers config message { server with db := db' } where
  answered id p hp := ⟨(h.answered id p hp).1, hkeeps p (h.answered id p hp).2⟩
  sigs sig hsig := (h.sigs sig (hsigs ▸ hsig)).mono hkeeps
  waiting waiting hwaiting := (h.waiting waiting hwaiting).mono hkeeps

theorem Consistent.wait {waiting : Waiting} (h : Consistent ethers config message server)
    (hwaiting : WaitingSound ethers config message server.db waiting) :
    Consistent ethers config message (server.wait waiting).2 where
  answered := h.answered
  sigs := h.sigs
  waiting other hother := by
    rcases List.mem_append.mp hother with hold | hnew
    · exact h.waiting other hold
    · exact List.mem_singleton.mp hnew ▸ hwaiting

theorem Consistent.erase (h : Consistent ethers config message server) (n : Nat) :
    Consistent ethers config message { server with waiting := server.waiting.eraseIdx n } :=
  ⟨h.answered, h.sigs, fun waiting hwaiting => h.waiting waiting (List.mem_of_mem_eraseIdx hwaiting)⟩

theorem Consistent.withProposal {wallet id : String} {handle : WalletProposal → Reply}
    (h : Consistent ethers config message server)
    (hhandle : ∀ proposal, proposal.id = id → server.db.Knows proposal →
      Consistent ethers config message (handle proposal).2) :
    Consistent ethers config message (withProposal server wallet id handle).2 := by
  unfold Proposals.withProposal
  split
  · exact h
  · rename_i proposal hfind
    split
    · have hid : proposal.id = id := Table.key_of_find? hfind
      exact hhandle proposal hid ⟨proposal, hid ▸ hfind, WalletProposal.Same.refl _⟩
    · exact h

theorem Consistent.storeSig {id : String} {body : SignBody} {answered : Option WalletProposal}
    {now : Nat} (h : Consistent ethers config message server)
    (hsound : SoundAt ethers config message server.db id
      (unwrapAdvancedInnerSig ethers (trim body.signature) (trim body.keyId)) answered) :
    Consistent ethers config message (storeSig server id body answered now).2 := by
  unfold Proposals.storeSig
  dsimp only
  split
  · exact h
  · refine { answered := h.answered, sigs := fun sig hsig => ?_, waiting := fun waiting hwaiting => ?_ }
    · have hstored : server.db.Sound ethers config message ⟨id, trim body.entityId,
        trim body.keyId, body.keyType, trim body.signature, now, answered⟩ := hsound
      exact SoundAt.mono (Table.All.set h.sigs hstored sig hsig) fun _ hp => hp
    · exact WaitingSound.mono (h.waiting waiting hwaiting) fun _ hp => hp

theorem Consistent.submit {record : WalletProposal} {sigs : List WalletProposalSig}
    {signature : Option String} (h : Consistent ethers config message server)
    (hrecord : server.db.Knows record)
    (hsigs : ∀ sig ∈ sigs, server.db.Sound ethers config message sig ∧ sig.proposalId = record.id) :
    Consistent ethers config message (submit ethers config server record sigs signature).2 := by
  unfold Proposals.submit
  split
  · exact h
  · split
    · exact h
    · rename_i op hop
      refine h.wait ⟨hrecord, ⟨_, hop⟩, fun sig hsig => ?_⟩
      split at hsig
      · exact absurd hsig List.not_mem_nil
      · exact hsigs sig hsig

theorem mem_listWalletProposalSigs {id : String} (h : sig ∈ listWalletProposalSigs db id) :
    sig ∈ db.sigs.rows ∧ sig.proposalId = id := by
  have hmem := List.mem_filter.mp ((List.perm_insertionSort ..).mem_iff.mp h)
  exact ⟨hmem.1, of_decide_eq_true hmem.2⟩

theorem Consistent.executeProposal {proposal : WalletProposal} {signature : Option String}
    (h : Consistent ethers config message server) (hproposal : server.db.Knows proposal) :
    Consistent ethers config message
      (executeProposal ethers config server proposal signature).2 := by
  have hsigs : ∀ sig ∈ listWalletProposalSigs server.db proposal.id,
      server.db.Sound ethers config message sig ∧ sig.proposalId = proposal.id := by
    intro sig hsig
    obtain ⟨hmem, hid⟩ := mem_listWalletProposalSigs hsig
    exact ⟨h.sigs sig hmem, hid⟩
  unfold Proposals.executeProposal
  dsimp only
  split
  · exact h
  split
  · exact h
  split
  · exact h
  split
  · split
    · exact h
    · exact h.wait ⟨hproposal, hsigs⟩
  · exact h.submit hproposal hsigs

theorem Consistent.executeWith {proposal : WalletProposal} {sigs : List WalletProposalSig}
    {signature : Option String} {nonce : Nat} (h : Consistent ethers config message server)
    (hproposal : server.db.Knows proposal)
    (hsigs : ∀ sig ∈ sigs, server.db.Sound ethers config message sig ∧
      sig.proposalId = proposal.id) :
    Consistent ethers config message
      (executeWith ethers config server proposal sigs signature nonce).2 := by
  have hkeeps : server.db.Keeps (prepareWalletProposal server.db proposal.id nonce).1 :=
    keeps_prepare
  have hdb := h.withDb hkeeps rfl
  unfold Proposals.executeWith
  dsimp only
  cases hprepared : (prepareWalletProposal server.db proposal.id nonce).2 with
  | none =>
    exact hdb.submit (hkeeps _ hproposal) fun sig hsig =>
      ⟨(hsigs sig hsig).1.mono hkeeps, (hsigs sig hsig).2⟩
  | some prepared =>
    obtain ⟨hid, hknows⟩ := knows_prepared hprepared
    exact hdb.submit hknows fun sig hsig =>
      ⟨(hsigs sig hsig).1.mono hkeeps, (hsigs sig hsig).2.trans hid.symm⟩

theorem Consistent.prepareWith {id : String} {nonce : Nat}
    (h : Consistent ethers config message server) :
    Consistent ethers config message (prepareWith ethers config server id nonce).2 := by
  have hkeeps : server.db.Keeps (prepareWalletProposal server.db id nonce).1 := keeps_prepare
  have hdb := h.withDb hkeeps rfl
  unfold Proposals.prepareWith
  dsimp only
  split
  · exact hdb
  · rename_i prepared hprepared
    split
    · exact hdb
    · exact hdb.wait (knows_prepared hprepared).2

theorem Consistent.resumed {waiting : Waiting} {answer : Answer}
    (h : Consistent ethers config message server)
    (hwaiting : WaitingSound ethers config message server.db waiting) :
    Consistent ethers config message (resumed ethers config server waiting answer).2 := by
  unfold Proposals.resumed
  split
  · exact h.prepareWith
  · rename_i prepared
    refine { answered := fun id p hp => ?_, sigs := h.sigs, waiting := h.waiting }
    dsimp only [answerHash] at hp
    split at hp
    · rename_i hid
      obtain rfl := Option.some.inj hp
      exact ⟨hid.symm, hwaiting⟩
    · exact h.answered id p hp
  · exact h.storeSig hwaiting
  · exact h.executeProposal hwaiting
  · exact h.executeWith hwaiting.1 hwaiting.2
  · unfold answerUserOp
    split
    · split
      · exact h.withDb keeps_txHash rfl
      · exact h
    · exact h
    · exact ⟨h.answered, h.sigs, h.waiting⟩
  · exact h

/-- A step of signers who sign the latest preparation. -/
theorem Consistent.next (h : Consistent ethers config message server)
    (hfollows : Follows ethers config message server event) :
    Consistent ethers config message (next ethers config server event) := by
  unfold Proposals.next step
  cases event with
  | post wallet id body =>
    dsimp only [postProposal]
    split
    · exact h.withDb keeps_create rfl
    · exact h
  | patch wallet id txHash =>
    refine h.withProposal fun proposal _ _ => ?_
    split
    · exact h
    · exact h.withDb keeps_txHash rfl
  | prepare wallet id =>
    refine h.withProposal fun proposal _ _ => ?_
    split
    · exact h
    · exact h.wait trivial
  | sign wallet id body =>
    obtain ⟨p, hp, hhash⟩ := Option.bind_eq_some_iff.mp hfollows
    obtain ⟨hid, hknows⟩ := h.answered id p hp
    exact h.withProposal fun proposal _ _ => h.wait ⟨p, hp, hid, hknows, hhash⟩
  | execute wallet id => exact h.withProposal fun proposal _ hknows => h.wait hknows
  | resume n answer =>
    dsimp only
    split
    · exact h
    · rename_i waiting hwaiting
      exact (h.erase n).resumed (h.waiting waiting (List.mem_of_getElem? hwaiting))

theorem Consistent.empty : Consistent ethers config message .empty where
  answered id p hp := absurd hp (by simp [ProposalServer.empty])
  sigs := Table.All.empty
  waiting waiting hwaiting := absurd hwaiting List.not_mem_nil

/-! ## What is handed over -/

theorem submitted_withProposal {wallet id : String} {handle : WalletProposal → Reply}
    (h : ∀ proposal, (handle proposal).2.submitted = server.submitted) :
    (withProposal server wallet id handle).2.submitted = server.submitted := by
  unfold Proposals.withProposal
  split
  · rfl
  · split
    · exact h _
    · rfl

theorem submitted_submit {record : WalletProposal} {sigs : List WalletProposalSig}
    {signature : Option String} :
    (submit ethers config server record sigs signature).2.submitted = server.submitted := by
  unfold Proposals.submit
  split
  · rfl
  · split <;> rfl

theorem submitted_prepareWith {id : String} {nonce : Nat} :
    (prepareWith ethers config server id nonce).2.submitted = server.submitted := by
  unfold Proposals.prepareWith
  dsimp only
  split
  · rfl
  · split <;> rfl

theorem submitted_storeSig {id : String} {body : SignBody} {answered : Option WalletProposal}
    {now : Nat} : (storeSig server id body answered now).2.submitted = server.submitted := by
  unfold Proposals.storeSig
  dsimp only
  split <;> rfl

theorem submitted_executeProposal {proposal : WalletProposal} {signature : Option String} :
    (executeProposal ethers config server proposal signature).2.submitted = server.submitted := by
  unfold Proposals.executeProposal
  dsimp only
  split
  · rfl
  split
  · rfl
  split
  · rfl
  split
  · split <;> rfl
  · exact submitted_submit

theorem submitted_answerUserOp {record : WalletProposal} {op : UserOp}
    {packed : List WalletProposalSig} {existing : Existing} :
    (answerUserOp server record op packed existing).2.submitted = server.submitted ++
      ((handedOver (.userOp (some existing)) (.executeHash record op packed)).map Prod.snd).toList := by
  cases existing with
  | included txHash =>
    refine Eq.trans ?_ (List.append_nil _).symm
    unfold answerUserOp
    dsimp only
    split <;> rfl
  | underWay => exact (List.append_nil _).symm
  | free => rfl

theorem submitted_resumed {waiting : Waiting} {answer : Answer} :
    (resumed ethers config server waiting answer).2.submitted =
      server.submitted ++ ((handedOver answer waiting).map Prod.snd).toList := by
  unfold Proposals.resumed
  split
  · exact submitted_prepareWith.trans (List.append_nil _).symm
  · exact (List.append_nil _).symm
  · exact submitted_storeSig.trans (List.append_nil _).symm
  · exact submitted_executeProposal.trans (List.append_nil _).symm
  · exact submitted_submit.trans (List.append_nil _).symm
  · exact submitted_answerUserOp
  · rename_i hother
    have hnone : handedOver answer waiting = none := by
      cases waiting with
      | executeHash record op packed => exact if_neg fun heq => hother record op packed .free rfl heq
      | _ => rfl
    rw [hnone]
    exact (List.append_nil _).symm

/-- The operations handed over are those that `submission` names. -/
theorem submitted_next : (next ethers config server event).submitted =
    server.submitted ++ ((submission server event).map Prod.snd).toList := by
  cases event with
  | post wallet id body =>
    refine Eq.trans ?_ (List.append_nil _).symm
    dsimp only [Proposals.next, step, postProposal]
    split <;> rfl
  | patch wallet id txHash =>
    refine (submitted_withProposal fun proposal => ?_).trans (List.append_nil _).symm
    split <;> rfl
  | prepare wallet id =>
    refine (submitted_withProposal fun proposal => ?_).trans (List.append_nil _).symm
    split <;> rfl
  | sign wallet id body =>
    refine (submitted_withProposal fun proposal => ?_).trans (List.append_nil _).symm
    rfl
  | execute wallet id =>
    refine (submitted_withProposal fun proposal => ?_).trans (List.append_nil _).symm
    rfl
  | resume n answer =>
    dsimp only [Proposals.next, step, submission]
    split
    · rename_i hnone
      rw [hnone]
      exact (List.append_nil _).symm
    · rename_i waiting hwaiting
      rw [hwaiting]
      exact submitted_resumed

/-! ## Runs -/

abbrev after (ethers : Ethers) (config : AppConfig) (events : List Event) : ProposalServer :=
  run (next ethers config) .empty events

-- The signers of a run sign what the latest preparation gave them.
def Following (ethers : Ethers) (config : AppConfig) (message : String → Nat)
    (events : List Event) : Prop :=
  Each (fun pre event => Follows ethers config message (after ethers config pre) event) events

theorem consistent_after {events : List Event} (h : Following ethers config message events) :
    Consistent ethers config message (after ethers config events) := by
  induction events using List.reverseRecOn with
  | nil => exact Consistent.empty
  | append_singleton events event ih =>
    obtain ⟨hevents, hevent⟩ := each_concat.mp h
    rw [after, run_concat]
    exact (ih hevents).next hevent

/-- The operations of the queue are those that the steps of the run have handed over. -/
theorem mem_submitted_after {events : List Event} {s : Submission} :
    s ∈ (after ethers config events).submitted ↔
      Once (fun pre event => ∃ record, (record, s) ∈ submission (after ethers config pre) event)
        events := by
  induction events using List.reverseRecOn with
  | nil => exact ⟨fun h => absurd h List.not_mem_nil, fun h => absurd h once_nil⟩
  | append_singleton events event ih =>
    rw [after, run_concat, submitted_next, List.mem_append, once_concat, ih]
    apply or_congr_right
    rw [Option.mem_toList, Option.map_eq_some_iff]
    apply Iff.intro
    · rintro ⟨⟨record, s⟩, hs, rfl⟩
      exact ⟨record, hs⟩
    · rintro ⟨record, hs⟩
      exact ⟨_, hs, rfl⟩

theorem waiting_of_submission {s : WalletProposal × Submission}
    (hs : s ∈ submission server event) :
    .executeHash s.1 s.2.op s.2.packed ∈ server.waiting := by
  unfold submission at hs
  split at hs
  · obtain ⟨waiting, hwaiting, hs⟩ := Option.bind_eq_some_iff.mp hs
    unfold handedOver at hs
    split at hs
    · split at hs
      · obtain rfl := Option.some.inj hs
        exact List.mem_of_getElem? hwaiting
      · exact absurd hs (by simp)
    · exact absurd hs (by simp)
  · exact absurd hs (by simp)

/-- What is handed over waited with a sound record and sound signatures. -/
theorem sound_of_submission {s : WalletProposal × Submission}
    (h : Consistent ethers config message server) (hs : s ∈ submission server event) :
    WaitingSound ethers config message server.db (.executeHash s.1 s.2.op s.2.packed) :=
  h.waiting _ (waiting_of_submission hs)

theorem matches_of_steady (h : Consistent ethers config message server)
    (hsteady : Steady server event) : Matches ethers message server event := by
  intro s hs sig hsig
  obtain ⟨hrecord, ⟨text, hbuild⟩, hsigs⟩ := sound_of_submission h hs
  obtain ⟨hsound, hid⟩ := hsigs sig hsig
  exact (message_eq_iff hsound hid hrecord hbuild).1 (hsteady s hs sig hsig)

theorem steady_of_matches (h : Consistent ethers config message server)
    (htells : TellsNonces ethers) (hmatches : Matches ethers message server event) :
    Steady server event := by
  intro s hs sig hsig
  obtain ⟨hrecord, ⟨text, hbuild⟩, hsigs⟩ := sound_of_submission h hs
  obtain ⟨hsound, hid⟩ := hsigs sig hsig
  exact (message_eq_iff hsound hid hrecord hbuild).2 htells (hmatches s hs sig hsig)

/-- In a run whose signers follow the latest preparation, the stored signatures of every operation
handed over are over its hash if no preparation has come between; and, where hashes tell nonces
apart, only then. -/
theorem signatures_match {events : List Event} (h : Following ethers config message events) :
    (Each (fun pre event => Steady (after ethers config pre) event) events →
      Each (fun pre event => Matches ethers message (after ethers config pre) event) events) ∧
    (TellsNonces ethers →
      Each (fun pre event => Matches ethers message (after ethers config pre) event) events →
        Each (fun pre event => Steady (after ethers config pre) event) events) := by
  have hconsistent : ∀ pre event, pre ++ [event] <+: events →
      Consistent ethers config message (after ethers config pre) := by
    intro pre event hpre
    apply consistent_after
    intro pre' event' hpre'
    exact h pre' event' (hpre'.trans ((List.prefix_append pre [event]).trans hpre))
  apply And.intro
  · intro hsteady pre event hpre
    exact matches_of_steady (hconsistent pre event hpre) (hsteady pre event hpre)
  · intro htells hmatches pre event hpre
    exact steady_of_matches (hconsistent pre event hpre) htells (hmatches pre event hpre)

end Proofs

/-! ## Two signers -/

def plainEthers : Ethers where
  isAddress _ := true
  getAddress := some
  bigInt _ := some 0
  encodeErc20Transfer _ _ := some "0x"
  encodeExecuteCallData _ := some "0x"
  encodeSignatures sigs := some (String.join (sigs.map Prod.snd))
  decodeAdvancedSignature _ := none
  getUserOpHash _ nonce _ := nonce

def plainConfig : AppConfig := ⟨[], ⟨"8453", some "rpc", some "0x33"⟩, some "0x44", 100000⟩

-- A text for each signature, and the hash it is over.
def plainMessage (signature : String) : Nat := if signature = "0xa5" then 5 else 6

def prepared (nonce : Nat) : List Event :=
  [.prepare "0x11" "p", .resume 0 (.nonce (some nonce)), .resume 0 (.hash true)]

def signed (entityId signature : String) (now : Nat) : List Event :=
  [.sign "0x11" "p" ⟨entityId, "key", 0, signature⟩, .resume 0 (.signBody now)]

def executed : List Event :=
  [.execute "0x11" "p", .resume 0 (.executeBody none), .resume 0 (.userOp (some .free))]

def posted : Event := .post "0x11" "p" ⟨"0x22", none, none, "8453"⟩

def signedTogether : List Event :=
  posted :: prepared 6 ++ signed "a" "0xa6" 1 ++ signed "b" "0xb6" 2 ++ executed

theorem signatures_match_together :
    Each (fun pre event => Matches plainEthers plainMessage (after plainEthers plainConfig pre)
      event) signedTogether :=
  (signatures_match (each_of_take (by decide) :
    Following plainEthers plainConfig plainMessage signedTogether)).1 (each_of_take (by decide))

-- A preparation comes between the two.
def signedApart : List Event :=
  posted :: prepared 5 ++ signed "a" "0xa5" 1 ++ prepared 6 ++ signed "b" "0xb6" 2 ++ executed

/-- The first signer's signature is over the hash of an operation that is never submitted. -/
theorem stale_signature_packed :
    Following plainEthers plainConfig plainMessage signedApart ∧
      ¬Each (fun pre event => Matches plainEthers plainMessage (after plainEthers plainConfig pre)
        event) signedApart := by
  apply And.intro
  · exact each_of_take (by decide)
  · intro h
    have hlast := h (posted :: prepared 5 ++ signed "a" "0xa5" 1 ++ prepared 6 ++
      signed "b" "0xb6" 2 ++ executed.take 2) (.resume 0 (.userOp (some .free))) List.prefix_rfl
    exact absurd hlast (by decide)

end OnchainInvoice.Proposals
