import OnchainInvoice.Lib.Histories
import OnchainInvoice.Node.SweepPass

/-!
# The node and its passes

The passes share the cache, the chain and the API.  Chains include, revert or drop what the node
sends, and payments may be moved by others.
-/

namespace OnchainInvoice.SweepPass

open Lib.Tables Lib.Histories

/-! ## States -/

inductive TxStatus
  | pending | included | reverted | dropped
deriving DecidableEq

structure Tx where
  hash : String
  key : Key
  status : TxStatus

-- A call of `postInvoiceTrack` by a pass.
structure Post where
  pass : Nat
  key : Key
  body : TrackBody
  accepted : Bool

structure State where
  now : Nat
  cache : Cache
  passes : Nat → Option Pass
  started : Nat
  txs : List Tx
  -- the payments that have reached the receiver or the merchant
  moved : List Key
  posts : List Post
  examined : List (Nat × Key)

def State.initial : State := ⟨0, .empty, fun _ => none, 0, [], [], [], []⟩

variable (config : Config) (n : Nat) (s : State)

def State.write : Write → State
  | .upsertInvoice invoice elapsed =>
    { s with
      now := s.now + elapsed
      cache := upsertInvoice s.cache (s.now + elapsed) invoice }
  | .upsertPaidInvoice paid => { s with cache := upsertPaidInvoice s.cache paid }
  | .recordSweepAttempt attempt => { s with cache := recordSweepAttempt s.cache attempt }
  | .markInvoiceChecked key => { s with cache := markInvoiceChecked s.cache s.now key }
  | .track key body accepted => { s with posts := s.posts ++ [⟨n, key, body, accepted⟩] }
  | .send hash key => { s with txs := s.txs ++ [⟨hash, key, .pending⟩] }
  | .examine key => { s with examined := s.examined ++ [(n, key)] }

def State.writes (writes : List Write) : State := writes.foldl (State.write n) s

def State.put (pass : Option Pass) : State := { s with passes := Function.update s.passes n pass }

/-! ## Steps -/

-- No pass is under way.
def State.idle : Bool := (List.range s.started).all fun n => (s.passes n).isNone

-- The invoice that a pass is at.
def Stage.current : Stage → Option Key
  | .reconciling _ _ (.asked invoice) | .reconciling _ _ (.status invoice _)
  | .reconciling _ _ (.track invoice _) | .sweeping _ _ (.trying invoice _)
  | .eoa _ (.planning _ (invoice :: _) _) => some invoice.key
  | .eoa _ (.executing (item :: _)) | .eoa _ (.status item ..) | .eoa _ (.track item ..) =>
    some item.invoice.key
  | _ => none

-- The receiver and the chain tell the truth, and the hash of a transaction is its own.
def State.possible (stage : Stage) : Answer → Bool
  | .payment payment => !payment.paid || stage.current.any s.moved.contains
  | .sent hash _ | .lost hash _ => s.txs.all (·.hash ≠ hash)
  | .receipt receipt =>
    match stage with
    | .sweeping _ _ (.trying _ (.wait hash)) => receipt.hash = hash && receipt.status = 1 &&
        s.txs.any fun tx => tx.hash = hash && tx.status = .included
    | _ => false
  | _ => true

inductive Event
  | wait (ms : Nat)
  -- the timer fires
  | tick
  | restart
  -- what becomes of a transaction
  | settle (hash : String) (status : TxStatus)
  -- somebody else moves a payment
  | move (key : Key)
  | resume (n : Nat) (answer : Answer)

def Tx.settle (hash : String) (status : TxStatus) (tx : Tx) : Tx :=
  if tx.hash = hash ∧ tx.status = .pending then { tx with status := status } else tx

def next : Event → State
  | .wait ms => { s with now := s.now + ms }
  | .tick => { s.put s.started (some ⟨runOnce config, .ready⟩) with started := s.started + 1 }
  | .restart => { s with passes := fun _ => none }
  | .settle hash status =>
    let txs := s.txs.map (Tx.settle hash status)
    { s with
      txs := txs
      moved := s.moved ++ (txs.filter (·.status = .included)).map Tx.key }
  | .move key => { s with moved := s.moved ++ [key] }
  | .resume n answer =>
    match s.passes n with
    | none => s
    | some pass =>
      if s.possible pass.stage answer then
        match pass.resume config s.cache answer with
        | none => s
        | some (writes, pass') => (s.writes n writes).put n pass'
      else s

def after (events : List Event) : State := run (next config) .initial events

-- A node with one chain and one invoice, which a pass lists, asks about and sends a transaction for.
def evmChain : Chain := ⟨"1", .evm, some "0x5e", none, none, []⟩

def evmNode : Config := ⟨[evmChain], none, fun _ => none⟩

def evmInvoice : Invoice := ⟨"1", "0x01", "0xf0", "0x", none, none, none⟩

def unpaid : Payment := ⟨"0x00", 0, "0x00", false⟩

def evmSends (n : Nat) (hash : String) : List Event :=
  [.go, .page [(evmInvoice, 0)] false, .go, .go, .payment unpaid, .go, .go, .go, .go, .go,
    .payment unpaid, .balance 5, .sent hash 5].map (.resume n)

/-! ## What the writes of a step change -/

def attemptsOf (writes : List Write) : List SweepAttempt :=
  writes.filterMap fun
    | .recordSweepAttempt attempt => some attempt
    | _ => none

def postsOf (writes : List Write) : List Post :=
  writes.filterMap fun
    | .track key body accepted => some ⟨n, key, body, accepted⟩
    | _ => none

def sendsOf (writes : List Write) : List Tx :=
  writes.filterMap fun
    | .send hash key => some ⟨hash, key, .pending⟩
    | _ => none

def examinesOf (writes : List Write) : List (Nat × Key) :=
  writes.filterMap fun
    | .examine key => some (n, key)
    | _ => none

-- Nothing but the tables of the invoices is left open.
structure Written (writes : List Write) (s s' : State) : Prop where
  passes : s'.passes = s.passes
  started : s'.started = s.started
  attempts : s'.cache.sweepAttempts = s.cache.sweepAttempts ++ attemptsOf writes
  txs : s'.txs = s.txs ++ sendsOf writes
  moved : s'.moved = s.moved
  posts : s'.posts = s.posts ++ postsOf n writes
  examined : s'.examined = s.examined ++ examinesOf n writes

theorem written_write (w : Write) : Written n [w] s (s.write n w) := by
  cases w <;> constructor <;> simp [State.write, attemptsOf, sendsOf, postsOf, examinesOf,
    upsertInvoice, upsertPaidInvoice, recordSweepAttempt, markInvoiceChecked]

theorem written (writes : List Write) : Written n writes s (s.writes n writes) := by
  induction writes generalizing s with
  | nil => constructor <;> simp [State.writes, attemptsOf, sendsOf, postsOf, examinesOf]
  | cons w writes ih =>
    have hhead := written_write n s w
    have htail := ih (s.write n w)
    constructor
    case passes => exact htail.passes.trans hhead.passes
    case started => exact htail.started.trans hhead.started
    case moved => exact htail.moved.trans hhead.moved
    case attempts =>
      refine htail.attempts.trans ?_
      rw [hhead.attempts, List.append_assoc]
      exact congrArg (_ ++ ·) (List.filterMap_append (l := [w])).symm
    case txs =>
      refine htail.txs.trans ?_
      rw [hhead.txs, List.append_assoc]
      exact congrArg (_ ++ ·) (List.filterMap_append (l := [w])).symm
    case posts =>
      refine htail.posts.trans ?_
      rw [hhead.posts, List.append_assoc]
      exact congrArg (_ ++ ·) (List.filterMap_append (l := [w])).symm
    case examined =>
      refine htail.examined.trans ?_
      rw [hhead.examined, List.append_assoc]
      exact congrArg (_ ++ ·) (List.filterMap_append (l := [w])).symm

end OnchainInvoice.SweepPass
