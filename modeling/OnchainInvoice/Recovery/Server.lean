import OnchainInvoice.Recovery.WalletRoutes

/-!
# The recovery server

The routes as the steps of a server that also remembers which handlers wait for an answer.  Every
round of the loop over the wallets of a request is a step, so the handlers interleave here at least
as they do in the server.
-/

namespace OnchainInvoice.Recovery

open Lib.Revert Lib.Tables Server WalletLog

-- A handler that waits: for the switches of the wallets, for its next round, for the owner on the
-- chain, for the pending owner, or for the address of the guardian.
inductive Pending
  | chosen (input : Input) (sessionEmail : Option String) (wallets : List String)
  | creating (c : Creation)
  | looking (c : Creation) (wallet : String)
  | cancelling (c : ClientCancel)
  | guarding (session : GuardianSession) (action : GuardianAction)

structure RecoveryServer where
  db : RecoveryDb
  pending : List Pending

def RecoveryServer.empty : RecoveryServer := ⟨.empty, []⟩

-- What a handler that waited is given; `mailSent` is false if it sends a mail and fails to.
structure Answer where
  input : Input
  restoreEnabled : Bool
  existingOwner : Bool
  mailSent : Bool
  digest : Option String
  guardian : Option String

inductive Call
  | attachEmail (input : Input)
  | verifyEmailOtp (input : Input)
  | startRecoveryEmailLookup (input : Input) (restoreEnabled : Bool)
  | verifyRecoveryEmailLookup (input : Input)
  | recoveryChallenge (input : Input)
  | createRecoveryRequest (input : Input) (sessionEmail latest : Option String)
      (walletAddresses : List String)
  | resume (n : Nat) (answer : Answer)
  | verifyRecoveryEmail (requestId : String) (input : Input)
  | cancelRecoveryRequest (requestId : String) (input : Input)
  | guardianNonce (address nonce : String) (guardian : Option String) (now : Time)
  | guardianLogin (body : Body) (guardian : Option String) (token : String) (now : Time)
  | guardianRequest (token : Option String) (action : GuardianAction) (now : Time)
  | postDevice (body : Body) (now : Time)
  | deleteDevice (wallet ownerQx ownerQy : String) (chainId : Option String) (now : Time)
  | recoverWalletAccount (input : Input) (onChainOwners : List Coords)
  | clientChallenge (client : Client) (input : Input)
  | createClientWallet (client : Client) (input : Input) (attestation : Option String)
  | initiateRecovery (client : Client) (wallet : String) (input : Input) (identityVerified : Bool)
  | cancelRecovery (client : Client) (wallet : String) (input : Input)
  | operatorSign (requestId : String) (call : OperatorCall) (seen : Option OperatorPayload)
      (body : Body)
  | operatorInitiated (requestId : String) (call : OperatorCall)
  | claimJob (authorized : Bool) (input : ClaimJob) (now : Time)
  | trackJob (authorized : Bool) (input : TrackJob) (now : Time)
  -- a route that is not here writes a table of the wallets
  | elsewhere (write : WalletLog.Call)

variable (env : Env)

abbrev Outcome := Except HttpError Unit × RecoveryServer

def replied (pending : List Pending) (reply : Reply) : Outcome := (reply.1, ⟨reply.2, pending⟩)

-- A round of the loop that has passed its checks.
def finishRound (db : RecoveryDb) (pending : List Pending) (c : Creation) (wallet : String)
    (existingOwner : Bool) (answer : Answer) : Outcome :=
  match createRow env db c wallet existingOwner answer.input with
  | (.error e, db) => (.error e, ⟨db, pending⟩)
  | (.ok (), db) => (.ok (), ⟨db, if answer.mailSent then pending ++ [.creating c] else pending⟩)

def guardianCall (session : GuardianSession) (answer : Answer) : GuardianCall :=
  ⟨session, answer.guardian, answer.input.now, answer.input.newId⟩

def resumed (db : RecoveryDb) (rest : List Pending) (answer : Answer) : Pending → Outcome
  | .chosen input sessionEmail wallets =>
    match startCreation env db { input with now := answer.input.now } sessionEmail wallets
      answer.restoreEnabled with
    | (.error e, db) => (.error e, ⟨db, rest⟩)
    | (.ok c, db) => (.ok (), ⟨db, rest ++ [.creating c]⟩)
  | .creating c =>
    match c.wallets with
    | [] => (.ok (), ⟨db, rest⟩)
    | wallet :: wallets =>
      let next := { c with wallets := wallets }
      if skipped env db c wallet then (.ok (), ⟨db, rest ++ [.creating next]⟩)
      else if c.newEoa.isSome then (.ok (), ⟨db, rest ++ [.looking next wallet]⟩)
      else finishRound env db rest next wallet false answer
  | .looking c wallet => finishRound env db rest c wallet answer.existingOwner answer
  | .cancelling c =>
    replied rest (finishClientCancel env db c answer.digest answer.input.now answer.input.newId)
  | .guarding session action =>
    replied rest (guardianAction env db action (guardianCall session answer))

def resume (s : RecoveryServer) (n : Nat) (answer : Answer) : Outcome :=
  match s.pending[n]? with
  | none => (.ok (), s)
  | some waiting => resumed env s.db (s.pending.eraseIdx n) answer waiting

def createRecoveryRequest (s : RecoveryServer) (input : Input)
    (sessionEmail latest : Option String) (walletAddresses : List String) : Outcome :=
  match requestedWallets env s.db input sessionEmail latest walletAddresses with
  | .error e => (.error e, s)
  | .ok wallets => (.ok (), { s with pending := s.pending ++ [.chosen input sessionEmail wallets] })

-- Without a node there is no pending owner to wait for.
def cancelRecovery (s : RecoveryServer) (client : Client) (wallet : String) (input : Input) :
    Outcome :=
  match startClientCancel env s.db client wallet input with
  | (.error e, db) => (.error e, { s with db := db })
  | (.ok c, db) =>
    if env.rpcUrl then (.ok (), ⟨db, s.pending ++ [.cancelling c]⟩)
    else replied s.pending (finishClientCancel env db c none input.now input.newId)

-- `requireGuardianSession`, before the guardian's address is known.
def guardianRequest (s : RecoveryServer) (token : Option String) (action : GuardianAction)
    (now : Time) : Outcome :=
  match token.filter (· ≠ "") with
  | none => replied s.pending (refuse s.db 401 "unauthorized")
  | some token =>
    match getGuardianSession s.db now (env.hashToken token) with
    | (none, db) => replied s.pending (refuse db 401 "unauthorized")
    | (some session, db) => (.ok (), ⟨db, s.pending ++ [.guarding session action]⟩)

def step (s : RecoveryServer) (call : Call) : Outcome :=
  match call with
  | .attachEmail input => replied s.pending (attachEmail env s.db input)
  | .verifyEmailOtp input => replied s.pending (verifyEmailOtp env s.db input)
  | .startRecoveryEmailLookup input restoreEnabled =>
    replied s.pending (startRecoveryEmailLookup env s.db input restoreEnabled)
  | .verifyRecoveryEmailLookup input => replied s.pending (verifyRecoveryEmailLookup env s.db input)
  | .recoveryChallenge input => replied s.pending (recoveryChallenge s.db input)
  | .createRecoveryRequest input sessionEmail latest walletAddresses =>
    createRecoveryRequest env s input sessionEmail latest walletAddresses
  | .resume n answer => resume env s n answer
  | .verifyRecoveryEmail requestId input =>
    replied s.pending (verifyRecoveryEmail env s.db requestId input)
  | .cancelRecoveryRequest requestId input =>
    replied s.pending (cancelRecoveryRequest env s.db requestId input)
  | .guardianNonce address nonce guardian now =>
    replied s.pending (guardianNonce env s.db address nonce guardian now)
  | .guardianLogin body guardian token now =>
    replied s.pending (guardianLogin env s.db body guardian token now)
  | .guardianRequest token action now => guardianRequest env s token action now
  | .postDevice body now => replied s.pending (postDevice s.db body now)
  | .deleteDevice wallet ownerQx ownerQy chainId now =>
    replied s.pending (deleteDevice s.db wallet ownerQx ownerQy chainId now)
  | .recoverWalletAccount input onChainOwners =>
    replied s.pending (recoverWalletAccount env s.db input onChainOwners)
  | .clientChallenge client input => replied s.pending (clientChallenge s.db client input)
  | .createClientWallet client input attestation =>
    replied s.pending (createClientWallet env s.db client input attestation)
  | .initiateRecovery client wallet input identityVerified =>
    replied s.pending (initiateRecovery env s.db client wallet input identityVerified)
  | .cancelRecovery client wallet input => cancelRecovery env s client wallet input
  | .operatorSign requestId call seen body =>
    replied s.pending (operatorSign s.db requestId call seen body)
  | .operatorInitiated requestId call => replied s.pending (operatorInitiated s.db requestId call)
  | .claimJob authorized input now => replied s.pending (claimJob env s.db authorized input now)
  | .trackJob authorized input now => replied s.pending (trackJob env s.db authorized input now)
  | .elsewhere write =>
    replied s.pending (accept { s.db with wallets := (WalletLog.step s.db.wallets write).1 })

def next (s : RecoveryServer) (call : Call) : RecoveryServer := (step env s call).2

end OnchainInvoice.Recovery
