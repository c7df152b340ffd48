import OnchainInvoice.Proposals.PackedSignatures
import OnchainInvoice.Proposals.SignedOperation
import OnchainInvoice.WebAuthn.Spellings

/-!
# What the wallet makes of a submitted operation

An operation that is handed over carries the signatures stored with its proposal, so the wallet
accepts it just when what the signers have made satisfies its policy.
-/

namespace OnchainInvoice.Proposals

open Server Lib.Histories

variable {ethers : Ethers} {config : AppConfig} {server : ProposalServer} {event : Event}

-- The stored signatures, where the request did not bring one of its own.
def Carries (ethers : Ethers) (op : UserOp) (packed : List WalletProposalSig) : Prop :=
  packed = [] ∨
    ethers.encodeSignatures (packed.map fun sig => (sig.keyId, sig.inner ethers)) = some op.signature

def WaitingCarries (ethers : Ethers) : Waiting → Prop
  | .executeHash _ op packed => Carries ethers op packed
  | _ => True

def Carrying (ethers : Ethers) (server : ProposalServer) : Prop :=
  ∀ waiting ∈ server.waiting, WaitingCarries ethers waiting

theorem Carrying.empty : Carrying ethers .empty := fun _ h => absurd h List.not_mem_nil

theorem Carrying.wait (h : Carrying ethers server) {waiting : Waiting}
    (hwaiting : WaitingCarries ethers waiting) : Carrying ethers (server.wait waiting).2 := by
  intro other hother
  rcases List.mem_append.mp hother with hold | hnew
  · exact h other hold
  · exact List.mem_singleton.mp hnew ▸ hwaiting

theorem Carrying.erase (h : Carrying ethers server) (n : Nat) :
    Carrying ethers { server with waiting := server.waiting.eraseIdx n } :=
  fun waiting hwaiting => h waiting (List.mem_of_mem_eraseIdx hwaiting)

theorem Carrying.withProposal {wallet id : String} {handle : WalletProposal → Reply}
    (h : Carrying ethers server) (hhandle : ∀ proposal, Carrying ethers (handle proposal).2) :
    Carrying ethers (withProposal server wallet id handle).2 := by
  unfold Proposals.withProposal
  split
  · exact h
  · split
    · exact hhandle _
    · exact h

theorem signature_of_build {proposal : WalletProposal} {signature : String} {op : UserOp}
    (h : buildProposalUserOp ethers config proposal signature = some op) :
    op.signature = signature := by
  have h' := build_of_same signature (WalletProposal.Same.refl proposal) h
  rw [h] at h'
  exact congrArg UserOp.signature (Option.some.inj h')

theorem Carrying.submit {record : WalletProposal} {sigs : List WalletProposalSig}
    {signature : Option String} (h : Carrying ethers server) :
    Carrying ethers (submit ethers config server record sigs signature).2 := by
  unfold Proposals.submit
  split
  · exact h
  · rename_i packedSig hpacked
    split
    · exact h
    · rename_i op hop
      apply h.wait
      cases signature with
      | some signature => exact .inl rfl
      | none =>
        right
        rw [signature_of_build hop]
        exact hpacked

theorem Carrying.executeProposal {proposal : WalletProposal} {signature : Option String}
    (h : Carrying ethers server) :
    Carrying ethers (executeProposal ethers config server proposal signature).2 := by
  unfold Proposals.executeProposal
  dsimp only
  split
  · exact h
  split
  · exact h
  split
  · exact h
  split
  · split
    · exact h
    · exact h.wait trivial
  · exact h.submit

theorem Carrying.answerUserOp {record : WalletProposal} {op : UserOp}
    {packed : List WalletProposalSig} {existing : Existing} (h : Carrying ethers server) :
    Carrying ethers (answerUserOp server record op packed existing).2 := by
  unfold Proposals.answerUserOp
  split
  · split <;> exact h
  · exact h
  · exact h

theorem Carrying.resumed {waiting : Waiting} {answer : Answer} (h : Carrying ethers server) :
    Carrying ethers (resumed ethers config server waiting answer).2 := by
  unfold Proposals.resumed
  split
  · unfold Proposals.prepareWith
    dsimp only
    split
    · exact h
    · split
      · exact h
      · exact Carrying.wait h trivial
  · exact h
  · unfold Proposals.storeSig
    dsimp only
    split <;> exact h
  · exact h.executeProposal
  · exact Carrying.submit h
  · exact h.answerUserOp
  · exact h

theorem Carrying.next (h : Carrying ethers server) (event : Event) :
    Carrying ethers (next ethers config server event) := by
  unfold Proposals.next step
  cases event with
  | post wallet id body =>
    dsimp only [postProposal]
    split <;> exact h
  | patch wallet id txHash =>
    refine h.withProposal fun proposal => ?_
    split <;> exact h
  | prepare wallet id =>
    refine h.withProposal fun proposal => ?_
    split
    · exact h
    · exact h.wait trivial
  | sign wallet id body => exact h.withProposal fun proposal => h.wait trivial
  | execute wallet id => exact h.withProposal fun proposal => h.wait trivial
  | resume n answer =>
    dsimp only
    split
    · exact h
    · exact (h.erase n).resumed

theorem carrying_after (events : List Event) : Carrying ethers (after ethers config events) := by
  induction events using List.reverseRecOn with
  | nil => exact Carrying.empty
  | append_singleton events event ih =>
    rw [after, run_concat]
    exact ih.next event

/-- What a run hands over carries the signatures that were packed for it. -/
theorem carries_of_submitted {events : List Event} {s : Submission}
    (hs : s ∈ (after ethers config events).submitted) : Carries ethers s.op s.packed := by
  obtain ⟨pre, event, -, record, hsubmission⟩ := mem_submitted_after.mp hs
  exact carrying_after pre _ (waiting_of_submission hsubmission)

/-! ## A proposal that is ready -/

section Ready

variable {proposal : WalletProposal} {wallet id : String}

theorem withProposal_found {handle : WalletProposal → Reply}
    (hfind : server.db.proposals.find? id = some proposal)
    (hwallet : lowerCase proposal.walletAddress = lowerCase wallet) :
    withProposal server wallet id handle = handle proposal := by
  unfold withProposal
  rw [hfind]
  exact if_pos hwallet

/-- A signature that is complete is stored. -/
theorem run_sign {body : SignBody} {now : Nat} (hwaiting : server.waiting = [])
    (hfind : server.db.proposals.find? id = some proposal)
    (hwallet : lowerCase proposal.walletAddress = lowerCase wallet)
    (hbody : ¬(trim body.entityId = "" ∨ trim body.keyId = "" ∨ trim body.signature = "" ∨
      body.keyType < 0)) :
    run (next ethers config) server [.sign wallet id body, .resume 0 (.signBody now)] =
      { server with
        db := addWalletProposalSig server.db ⟨id, trim body.entityId, trim body.keyId, body.keyType,
          trim body.signature, now, server.answered id⟩ } := by
  have hsign : next ethers config server (.sign wallet id body) =
      { server with waiting := [.signBody id body (server.answered id)] } := by
    unfold next step
    dsimp only
    rw [withProposal_found hfind hwallet, ProposalServer.wait, hwaiting]
    rfl
  show next ethers config (next ethers config server (.sign wallet id body))
    (.resume 0 (.signBody now)) = _
  rw [hsign]
  unfold next step
  show (storeSig { server with waiting := [] } id body (server.answered id) now).2 = _
  unfold storeSig
  rw [if_neg hbody, ← hwaiting]

/-- The operation of a proposal with a nonce carries the signatures that are stored. -/
theorem run_execute {packed : String} {op : UserOp} (hwaiting : server.waiting = [])
    (hfind : server.db.proposals.find? id = some proposal)
    (hwallet : lowerCase proposal.walletAddress = lowerCase wallet)
    (htxHash : proposal.txHash = none) (hstatus : proposal.status = .signing)
    (hnonce : proposal.nonce.isSome = true)
    (hsigs : listWalletProposalSigs server.db proposal.id ≠ [])
    (hpacked : ethers.encodeSignatures ((listWalletProposalSigs server.db proposal.id).map
      fun sig => (sig.keyId, sig.inner ethers)) = some packed)
    (hop : buildProposalUserOp ethers config proposal packed = some op) :
    (run (next ethers config) server [.execute wallet id, .resume 0 (.executeBody none),
      .resume 0 (.userOp (some .free))]).submitted =
        server.submitted ++ [⟨op, listWalletProposalSigs server.db proposal.id⟩] := by
  have hexecute : next ethers config server (.execute wallet id) =
      { server with waiting := [.executeBody proposal] } := by
    unfold next step
    dsimp only
    rw [withProposal_found hfind hwallet, ProposalServer.wait, hwaiting]
    rfl
  have hresume : next ethers config { server with waiting := [.executeBody proposal] }
      (.resume 0 (.executeBody none)) =
      { server with
        waiting := [.executeHash proposal op (listWalletProposalSigs server.db proposal.id)] } := by
    have hnone : proposal.nonce.isNone = false := by simpa using hnonce
    have hempty : (listWalletProposalSigs server.db proposal.id).isEmpty = false := by
      simpa using hsigs
    unfold next step
    show (executeProposal ethers config { server with waiting := [] } proposal none).2 = _
    simp only [executeProposal, htxHash, hstatus, hempty, hnone, submit, hpacked, hop,
      Option.getD_none, Option.any_none, Bool.false_eq_true, reduceCtorEq, if_false, or_self,
      Option.isSome_none, ProposalServer.wait, List.nil_append]
  show (next ethers config (next ethers config (next ethers config server (.execute wallet id))
    (.resume 0 (.executeBody none))) (.resume 0 (.userOp (some .free)))).submitted = _
  rw [hexecute, hresume]
  rfl

end Ready

end OnchainInvoice.Proposals

namespace OnchainInvoice.Wallet

open Evm AdvancedWalletTypes AdvancedWalletMixin WalletEip712 Lib.Runs

/-- The wallet takes packed entries just when they satisfy the policy of its state. -/
theorem accepts_pack {env : Env} {p : Policy} {digest : Bytes32} {entries : List EntitySig}
    (hb : Bijection p) (hk : KeysValid p) (hsize : (encodeEntitySigs entries).length < 2 ^ 64) :
    validateAdvancedSignatures env p digest (Proposals.pack entries) = .ok true ↔
      Satisfies env p digest entries := by
  have hlength : ADVANCED_SIG_MAGIC.length = 4 := rfl
  have htake : (Proposals.pack entries).take 4 = ADVANCED_SIG_MAGIC := List.take_left' hlength
  have hdrop : (Proposals.pack entries).drop 4 = encodeEntitySigs entries := List.drop_left' hlength
  rw [validateAdvancedSignatures_eq_true hb hk, htake, hdrop, abiDecodeEntitySigs_encode hsize]
  apply Iff.intro
  · rintro ⟨entries', -, hsome, hsatisfies⟩
    cases hsome
    exact hsatisfies
  · intro hsatisfies
    exact ⟨entries, rfl, rfl, hsatisfies⟩

/-- In every run of the proposal routes and of the wallet, a submitted operation that carries stored
signatures is signed for the wallet just when they satisfy its policy. -/
theorem submitted_signature_accepted {env : Env} {tx₀ : Tx Call} {qx qy : Bytes32}
    {recoveryContract : Address} {recoveryTimelock : Uint256} {s₀ : State}
    {ethers : Proposals.Ethers} {config : Proposals.AppConfig} {submission : Proposals.Submission}
    {entries : List EntitySig}
    (hcall : tx₀.call = .initialize_ qx qy recoveryContract recoveryTimelock)
    (hinit : step env clone tx₀ = .ok s₀) (txs : List (Tx Call)) (digest : Bytes32)
    (events : List Proposals.Event)
    (hsubmitted : submission ∈ (Proposals.after ethers.advanced config events).submitted)
    (hsome : submission.packed ≠ [])
    (hstored : List.Forall₂ Proposals.Stores submission.packed entries)
    (hsize : (encodeEntitySigs entries).length < 2 ^ 64) :
    ∃ signature, WebAuthnSignature.getBytes submission.op.signature.toList = some signature ∧
      (validateAdvancedSignatures env (run (step env) s₀ txs).policy digest signature = .ok true ↔
        Satisfies env (run (step env) s₀ txs).policy digest entries) := by
  have hs₀ := policy_of_init hcall hinit
  have hb : Bijection (run (step env) s₀ txs).policy :=
    run_stable (Bijection.stable env) (hs₀ ▸ Bijection.unused) txs
  have hk : KeysValid (run (step env) s₀ txs).policy := by
    refine run_stable (KeysValid.stable env) ?_ txs
    rw [hs₀]
    exact fun _ hlive => absurd rfl hlive
  have hcarries : Proposals.Carries ethers.advanced submission.op submission.packed :=
    Proposals.carries_of_submitted hsubmitted
  have hreads : List.Forall₂ Proposals.Reads
      (submission.packed.map fun sig => (sig.keyId, sig.inner ethers.advanced)) entries := by
    rw [List.forall₂_map_left_iff]
    exact hstored.imp fun sig entry h => h.reads
  have htext := (hcarries.resolve_left hsome).symm.trans
    (Proposals.encodeAdvancedSignature_eq hreads)
  refine ⟨Proposals.pack entries, ?_, accepts_pack hb hk hsize⟩
  rw [Option.some.inj htext, Signing.getBytes_hexlify]

-- Two signatures short of what the wallet asks for, the second packed by its client.
def plainEntry : EntitySig := ⟨7, [7]⟩

def packedEntry : EntitySig := ⟨8, [8]⟩

def packedText : String := Signing.hexlify (Proposals.wrapped 8 [8] 1)

def signedOnce : List Proposals.Event :=
  Proposals.posted :: Proposals.prepared 7 ++
    [.sign "0x11" "p" ⟨"2", IdentityRoutes.hex32 7, 0, "0x07"⟩, .resume 0 (.signBody 1)]

def shortRun : List Proposals.Event :=
  signedOnce ++ [.sign "0x11" "p" ⟨"3", IdentityRoutes.hex32 8, 0, packedText⟩,
    .resume 0 (.signBody 2)] ++ Proposals.executed

theorem trim_packedText : Server.trim packedText = packedText :=
  (WebAuthn.Spells.hex (Lib.ByteTexts.hex_hex (Proposals.wrapped 8 [8] 1))).trim

theorem stores_plainEntry {sig : Proposals.WalletProposalSig}
    (hkey : sig.keyId = IdentityRoutes.hex32 7) (htext : sig.signature = "0x07") :
    Proposals.Stores sig plainEntry := by
  refine ⟨?_, by decide, .inl ?_⟩
  · rw [hkey, IdentityRoutes.bytes32_hex32]
    rfl
  · rw [htext]
    decide

theorem stores_packedEntry {sig : Proposals.WalletProposalSig}
    (hkey : sig.keyId = IdentityRoutes.hex32 8) (htext : sig.signature = packedText) :
    Proposals.Stores sig packedEntry := by
  refine ⟨?_, by decide, .inr ⟨1, by decide, by decide +kernel, htext⟩⟩
  rw [hkey, IdentityRoutes.bytes32_hex32]
  rfl

-- What the server has of the two.
def shortProposal : Proposals.WalletProposal :=
  ⟨"p", "0x11", "8453", "0x22", "0", "0x", some 7, .signing, none⟩

def secondSig : Proposals.WalletProposalSig :=
  ⟨"p", "3", IdentityRoutes.hex32 8, 0, packedText, 2, some shortProposal⟩

def shortSigs : List Proposals.WalletProposalSig :=
  [⟨"p", "2", IdentityRoutes.hex32 7, 0, "0x07", 1, some shortProposal⟩, secondSig]

theorem stores_shortSigs : List.Forall₂ Proposals.Stores shortSigs [plainEntry, packedEntry] :=
  .cons (stores_plainEntry rfl rfl) (.cons (stores_packedEntry rfl rfl) .nil)

-- The server once the first has signed.
def onceSigned : Proposals.ProposalServer :=
  Proposals.after Proposals.plainEthers.advanced Proposals.plainConfig signedOnce

theorem state_onceSigned : onceSigned.waiting.length = 0 ∧
    onceSigned.db.proposals.find? "p" = some shortProposal ∧
    onceSigned.db.sigs.rows = shortSigs.take 1 ∧
    onceSigned.answered "p" = some shortProposal := by
  decide +kernel

theorem waiting_onceSigned : onceSigned.waiting = [] :=
  List.length_eq_zero_iff.mp state_onceSigned.1

theorem find_onceSigned : onceSigned.db.proposals.find? "p" = some shortProposal :=
  state_onceSigned.2.1

theorem rows_onceSigned : onceSigned.db.sigs.rows = shortSigs.take 1 := state_onceSigned.2.2.1

def bothSigned : Proposals.ProposalServer :=
  { onceSigned with db := Proposals.addWalletProposalSig onceSigned.db secondSig }

/-- The packed signature is stored as it came. -/
theorem run_second : Lib.Histories.run
    (Proposals.next Proposals.plainEthers.advanced Proposals.plainConfig) onceSigned
    [.sign "0x11" "p" ⟨"3", IdentityRoutes.hex32 8, 0, packedText⟩, .resume 0 (.signBody 2)] =
      bothSigned := by
  have hentity : Server.trim "3" = "3" := by decide
  have hkey : Server.trim (IdentityRoutes.hex32 8) = IdentityRoutes.hex32 8 := by decide +kernel
  have hkeyId : IdentityRoutes.hex32 8 ≠ "" := by decide +kernel
  have htext : packedText ≠ "" := fun h => absurd (congrArg String.toList h) (by simp [packedText,
    Signing.hexlify])
  have hwallet : Server.lowerCase shortProposal.walletAddress = Server.lowerCase "0x11" := rfl
  rw [Proposals.run_sign waiting_onceSigned find_onceSigned hwallet]
  · dsimp only
    rw [hentity, hkey, trim_packedText, state_onceSigned.2.2.2]
    rfl
  · dsimp only
    rw [hentity, hkey, trim_packedText]
    rw [not_or, not_or, not_or]
    exact ⟨by decide, hkeyId, htext, by decide⟩

theorem list_bothSigned :
    Proposals.listWalletProposalSigs bothSigned.db shortProposal.id = shortSigs := by
  have hfresh : secondSig.key ∉ onceSigned.db.sigs.rows.map Proposals.WalletProposalSig.key := by
    rw [rows_onceSigned]
    decide
  have hrows : bothSigned.db.sigs.rows = shortSigs := by
    show (onceSigned.db.sigs.set secondSig).rows = shortSigs
    unfold Lib.Tables.Table.set Lib.Tables.Table.upsert Lib.Tables.Table.insert
    rw [dif_neg hfresh, Option.getD_some]
    show onceSigned.db.sigs.rows ++ [secondSig] = shortSigs
    rw [rows_onceSigned]
    rfl
  unfold Proposals.listWalletProposalSigs
  rw [hrows]
  rfl

theorem submitted_shortRun : ∃ submission ∈
    (Proposals.after Proposals.plainEthers.advanced Proposals.plainConfig shortRun).submitted,
      submission.packed = shortSigs := by
  have hreads : List.Forall₂ Proposals.Reads (shortSigs.map fun sig =>
      (sig.keyId, sig.inner Proposals.plainEthers.advanced)) [plainEntry, packedEntry] := by
    rw [List.forall₂_map_left_iff]
    exact stores_shortSigs.imp fun sig entry h => h.reads
  have hpacked := Proposals.encodeAdvancedSignature_eq hreads
  have hop : ∃ op, Proposals.buildProposalUserOp Proposals.plainEthers.advanced Proposals.plainConfig
      shortProposal (Signing.hexlify (Proposals.pack [plainEntry, packedEntry])) = some op := ⟨_, rfl⟩
  obtain ⟨op, hop⟩ := hop
  have hafter : Proposals.after Proposals.plainEthers.advanced Proposals.plainConfig shortRun =
      Lib.Histories.run (Proposals.next Proposals.plainEthers.advanced Proposals.plainConfig)
        bothSigned Proposals.executed := by
    rw [shortRun, Proposals.after, Lib.Histories.run, List.foldl_append, List.foldl_append,
      ← run_second]
    rfl
  have hsubmitted : (Lib.Histories.run
      (Proposals.next Proposals.plainEthers.advanced Proposals.plainConfig) bothSigned
      Proposals.executed).submitted = bothSigned.submitted ++
        [⟨op, Proposals.listWalletProposalSigs bothSigned.db shortProposal.id⟩] := by
    have hwaiting : bothSigned.waiting = [] := waiting_onceSigned
    have hfind : bothSigned.db.proposals.find? "p" = some shortProposal := find_onceSigned
    have hwallet : Server.lowerCase shortProposal.walletAddress = Server.lowerCase "0x11" := rfl
    refine Proposals.run_execute hwaiting hfind hwallet rfl rfl rfl ?_ ?_ hop
    · rw [list_bothSigned]
      exact List.cons_ne_nil _ _
    · rw [list_bothSigned]
      exact hpacked
  rw [hafter, hsubmitted, list_bothSigned]
  exact ⟨_, List.mem_append_right _ (List.mem_singleton_self _), rfl⟩

theorem submitted_signature_accepted_short : ∃ submission ∈
    (Proposals.after Proposals.plainEthers.advanced Proposals.plainConfig shortRun).submitted,
      ∃ signature, WebAuthnSignature.getBytes submission.op.signature.toList = some signature ∧
        (validateAdvancedSignatures toyEnv (run (step toyEnv) (toyWallet 11 12) entityRun).policy 7
            signature = .ok true ↔
          Satisfies toyEnv (run (step toyEnv) (toyWallet 11 12) entityRun).policy 7
            [plainEntry, packedEntry]) := by
  obtain ⟨submission, hsubmitted, hpacked⟩ := submitted_shortRun
  have hcall : (toyInitialize 11 12).call = .initialize_ 11 12 0x6EC 100 := rfl
  have hinit : step toyEnv clone (toyInitialize 11 12) = .ok (toyWallet 11 12) := rfl
  exact ⟨submission, hsubmitted, submitted_signature_accepted hcall hinit entityRun 7 shortRun
    hsubmitted (hpacked ▸ List.cons_ne_nil _ _) (hpacked ▸ stores_shortSigs) (by decide +kernel)⟩

end OnchainInvoice.Wallet
