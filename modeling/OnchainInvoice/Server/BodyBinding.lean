import Mathlib.Tactic.NormNum
import OnchainInvoice.Server.Authentication

/-!
# Which body a signature covers

The signature covers a hash that the request itself carries.  Only `requireWalletClient` compares it
with the body; what the handlers of the other two surfaces act on is not bound by anything.
-/

namespace OnchainInvoice.SignedRequests

open Lib.Nonces Lib.Revert Function
open Server (lowerCase)

variable {env : Env} {s : State} {now : Reads} {surface : Surface} {r : Request} {body : String}

/-! ## The canonical message -/

theorem append_newline_inj {x y z w : List Char} (hx : '\n' ∉ x) (hy : '\n' ∉ y)
    (h : x ++ '\n' :: z = y ++ '\n' :: w) : x = y ∧ z = w := by
  induction x generalizing y with
  | nil =>
    cases y with
    | nil => exact ⟨rfl, (List.cons.inj h).2⟩
    | cons c y =>
      have hc : '\n' = c := (List.cons.inj h).1
      exact absurd (hc ▸ List.mem_cons_self ..) hy
  | cons c x ih =>
    cases y with
    | nil =>
      have hc : c = '\n' := (List.cons.inj h).1
      exact absurd (hc ▸ List.mem_cons_self ..) hx
    | cons c' y =>
      have ⟨hc, hrest⟩ := List.cons.inj h
      have ⟨hxy, hzw⟩ := ih (fun hmem => hx (List.mem_cons_of_mem c hmem))
        (fun hmem => hy (List.mem_cons_of_mem c' hmem)) hrest
      exact ⟨by rw [hc, hxy], hzw⟩

theorem line_inj {name z w : List Char} {l l' : Line}
    (h : name ++ l.val.toList ++ "\n".toList ++ z = name ++ l'.val.toList ++ "\n".toList ++ w) :
    l = l' ∧ z = w := by
  simp only [List.append_assoc, List.append_cancel_left_eq] at h
  have ⟨hl, hrest⟩ := append_newline_inj l.property l'.property h
  exact ⟨Subtype.ext (String.toList_inj.mp hl), hrest⟩

/-- A message is signed for one body hash. -/
theorem bodyHash_of_canonicalMessage {title : String} {i i' : CanonicalInput}
    (h : canonicalMessage title i = canonicalMessage title i') : i.bodyHash = i'.bodyHash := by
  have hlines := congrArg String.toList h
  unfold canonicalMessage at hlines
  simp only [String.toList_intercalate, List.map_cons, List.map_nil, String.toList_append,
    List.intercalate_cons_cons, List.intercalate_singleton] at hlines
  have hmethod := line_inj (List.append_cancel_left hlines)
  have hpath := line_inj hmethod.2
  exact (line_inj hpath.2).1

/-! ## What is bound -/

-- Two spellings of one digest.
def SameHex (a b : Line) : Prop := lowerCase a.val = lowerCase b.val

instance (a b : Line) : Decidable (SameHex a b) := inferInstanceAs (Decidable (_ = _))

def withBody (r : Request) (body : String) : Request := { r with rawBody := body }

-- The message that the signature of a request is checked against.
def verifiedMessage (env : Env) (r : Request) (surface : Surface) : Except Rejection String := do
  let (_, p) ← identify env r surface
  let input ← canonicalInput (api surface) env r p
  return canonicalMessage (api surface).title input

-- Whatever body is sent along with these headers, the handler acts on the one that was signed.
def BodyBound (env : Env) (s : State) (now : Reads) (r : Request) (surface : Surface) : Prop :=
  ∀ body text, (deliver env s ⟨surface, withBody r body, now⟩).1 = .ok text →
    SameHex (env.hashBody text) (coveredHash (api surface) env r) ∧
      ∀ method path signed timestamp nonce,
        verifiedMessage env r surface =
          .ok (signedMessage (api surface) env method path signed timestamp nonce) →
        (SameHex (env.hashBody text) (env.hashBody signed) → text = signed) → text = signed

theorem checkBody_eq_ok {u : Unit} : checkBody env r (some body) = .ok u ↔
    SameHex (env.hashBody body) (coveredHash clientApi env r) := by
  unfold checkBody safeEqualHex SameHex
  simp

/-- On the wallet client surface the covered hash is the hash of the body. -/
theorem sameHex_of_deliver {text : String}
    (h : (deliver env s ⟨.walletClient, withBody r body, now⟩).1 = .ok text) :
    SameHex (env.hashBody text) (coveredHash clientApi env r) := by
  obtain ⟨c, _, _, hverify, rfl⟩ := deliver_eq_ok.mp h
  unfold verify verifyClient at hverify
  simp only [bind_eq_ok] at hverify
  obtain ⟨_, _, _, hbody, _⟩ := hverify
  exact checkBody_eq_ok.mp hbody

/-- The other two surfaces answer alike whatever the body. -/
theorem deliver_withBody (hsurface : surface ≠ .walletClient) (body' : String)
    (h : (deliver env s ⟨surface, withBody r body, now⟩).1.isOk = true) :
    (deliver env s ⟨surface, withBody r body', now⟩).1 = .ok body' := by
  cases hdeliver : (deliver env s ⟨surface, withBody r body, now⟩).1 with
  | error e =>
    rw [hdeliver] at h
    exact absurd h Bool.false_ne_true
  | ok text =>
    obtain ⟨c, hadmission, hfresh, hverify, _⟩ := deliver_eq_ok.mp hdeliver
    apply deliver_eq_ok.mpr
    cases surface with
    | sweeper => exact ⟨c, hadmission, hfresh, hverify, rfl⟩
    | bundler => exact ⟨c, hadmission, hfresh, hverify, rfl⟩
    | walletClient => exact absurd rfl hsurface

theorem coveredHash_of_verifiedMessage {message : String}
    (h : verifiedMessage env r surface = .ok message) :
    ∃ i, message = canonicalMessage (api surface).title i ∧
      i.bodyHash = coveredHash (api surface) env r := by
  unfold verifiedMessage canonicalInput at h
  simp only [bind_eq_ok, pure_eq_ok] at h
  obtain ⟨⟨party, p⟩, _, input, hinput, rfl⟩ := h
  split at hinput
  · cases hinput
    exact ⟨_, rfl, rfl⟩
  · exact absurd hinput (by simp)

/-- Of the requests that are accepted, those on the wallet client surface bind the body. -/
theorem bodyBound_iff (hhash : ∃ a b, ¬SameHex (env.hashBody a) (env.hashBody b))
    (haccepted : ∃ body, (deliver env s ⟨surface, withBody r body, now⟩).1.isOk = true) :
    BodyBound env s now r surface ↔ surface = .walletClient := by
  obtain ⟨body, hbody⟩ := haccepted
  apply Iff.intro
  · intro hbound
    by_contra hsurface
    have hcovered : ∀ b, SameHex (env.hashBody b) (coveredHash (api surface) env r) :=
      fun b => (hbound b b (deliver_withBody hsurface b hbody)).1
    obtain ⟨a, b, hne⟩ := hhash
    exact hne ((hcovered a).trans (hcovered b).symm)
  · rintro rfl body text hdeliver
    have hsame : SameHex (env.hashBody text) (coveredHash clientApi env r) :=
      sameHex_of_deliver hdeliver
    refine ⟨hsame, fun method path signed timestamp nonce hmessage hcollision => ?_⟩
    obtain ⟨i, hi, hhash'⟩ := coveredHash_of_verifiedMessage hmessage
    have hsigned : env.hashBody signed = i.bodyHash := bodyHash_of_canonicalMessage hi
    apply hcollision
    rw [hsigned, hhash']
    exact hsame

theorem toy_accepts (body : String) :
    (deliver .toy .toy ⟨.sweeper, toyRequest toySigned body,
      ⟨1000000, 1000000, 1000000, by decide⟩⟩).1 = .ok body :=
  deliver_eq_ok.mpr ⟨_, admission_toy (identify_toySigned body) (by norm_num [SKEW_MS]), rfl,
    verify_toy .., rfl⟩

theorem bodyBound_iff_toy : BodyBound .toy .toy ⟨1000000, 1000000, 1000000, by decide⟩
    (toyRequest toySigned "") .sweeper ↔ Surface.sweeper = .walletClient :=
  bodyBound_iff ⟨"", "0", by decide⟩ ⟨"", congrArg Except.isOk (toy_accepts "")⟩

def sweptBody : String := "\x7b\"status\":\"swept\"\x7d"

/-- A sweeper's signature over the empty body, accepted with another one, which is acted on. -/
theorem sweeper_body_unbound :
    (deliver .toy .toy ⟨.sweeper, toyRequest toySigned sweptBody,
      ⟨1000000, 1000000, 1000000, by decide⟩⟩).1 = .ok sweptBody ∧
      ¬SameHex (Env.toy.hashBody sweptBody)
        (coveredHash sweeperApi .toy (toyRequest toySigned sweptBody)) ∧
      verifiedMessage .toy (toyRequest toySigned sweptBody) .sweeper =
        .ok (signedMessage sweeperApi .toy (Line.of "post") (Line.of "/track") ""
          (Line.of "1000000") (Line.of "n")) :=
  ⟨toy_accepts _, (by decide : ¬SameHex (Line.of "44") (Line.of "e3")), rfl⟩

end OnchainInvoice.SignedRequests
