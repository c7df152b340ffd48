import OnchainInvoice.Lib.ByteTexts
import OnchainInvoice.Persist.WalletDb

/-!
# Credential ids

`credential-id.ts` and the two lookups of `db.ts` that use it.  A credential id is stored as the text
that a client sent, so the same credential may stand there in several spellings.
-/

namespace OnchainInvoice.WebAuthn

open Lib.ByteTexts Lib.Tables Server WalletLog
open Lib.Casing (isWhite)

/-! ## Reading a credential id -/

-- What `parseInt(c + d, 16)` stores in a byte; `NaN` is stored as zero.
def parseByte (c d : Char) : UInt8 :=
  match hexValue c with
  | some high =>
    match hexValue d with
    | some low => UInt8.ofNat (high * 16 + low)
    | none => UInt8.ofNat high
  | none =>
    let low := (hexValue d).getD 0
    if c = '+' ∨ isWhite c then UInt8.ofNat low
    else if c = '-' then 0 - UInt8.ofNat low
    else 0

-- A last digit without a partner is dropped.
def hexToBytes : Text → Bytes
  | c :: d :: t => parseByte c d :: hexToBytes t
  | _ => []

-- `Buffer.from` takes any text, so the source's second attempt is never made.
def credentialIdToBytes (credentialId : String) : Bytes :=
  let trimmed := (trim credentialId).toList
  if trimmed.isEmpty then []
  else if ['0', 'x'].isPrefixOf trimmed then hexToBytes (trimmed.drop 2)
  else decode trimmed

def credentialIdsMatch (a b : Option String) : Bool :=
  match a, b with
  | some a, some b =>
    if trim a = "" ∨ trim b = "" then false
    else if trim a = trim b then true
    else
      let ab := credentialIdToBytes a
      let bb := credentialIdToBytes b
      decide (ab = bb ∧ ab ≠ [])
  | _, _ => false

-- `std.replace(/\+/g, "-").replace(/\//g, "_").replace(/=+$/, "")`
def urlSafe (std : Text) : Text :=
  let replaced := std.map fun c => if c = '+' then '-' else if c = '/' then '_' else c
  (replaced.reverse.dropWhile (· = '=')).reverse

def credentialIdLookupVariants (credentialId : String) : List String :=
  let bytes := credentialIdToBytes credentialId
  if bytes.isEmpty then [trim credentialId]
  else
    let std := encode false bytes ++ padding bytes
    [trim credentialId, String.ofList std, String.ofList (urlSafe std),
      String.ofList ('0' :: 'x' :: hex bytes)].eraseDups

/-! ## Lookups -/

-- The tables with the two columns that rows are ordered by.
structure CredentialDb where
  db : WalletDb
  lastUsedAt : WalletDevice → Option Time
  createdAt : WalletAccount → Time

-- `credential_id IS NOT NULL AND credential_id != ''`
def hasCredential (credentialId : Option String) : Bool := credentialId.any (· ≠ "")

def getIdentityMethodByCredentialId (db : WalletDb) (credentialId : String) :
    Option IdentityMethod :=
  let variants := credentialIdLookupVariants credentialId
  let exact := variants.findSome? fun id =>
    db.methods.rows.find? fun method => method.credentialId = some id
  match exact with
  | some method => some method
  | none =>
    (db.methods.rows.filter fun method => hasCredential method.credentialId).find?
      fun method => credentialIdsMatch method.credentialId (some credentialId)

variable (c : CredentialDb)

def getWalletAccount (address : String) : Option WalletAccount :=
  c.db.accounts.find? (lowerCase address)

-- `ORDER BY created_at ASC`
def listWalletAccountsByIdentityId (identityId : String) : List WalletAccount :=
  (c.db.accounts.rows.filter fun account => account.identityId = some identityId).mergeSort
    fun a b => c.createdAt a ≤ c.createdAt b

-- `ORDER BY last_used_at DESC`, where a device that was never used comes last.
def usedBefore (d e : WalletDevice) : Bool :=
  match c.lastUsedAt d, c.lastUsedAt e with
  | _, none => true
  | none, some _ => false
  | some d, some e => e ≤ d

def devicesByCredentialId (id : String) : List WalletDevice :=
  (c.db.devices.rows.filter fun device => device.credentialId = some id).mergeSort (usedBefore c)

def getWalletAccountByCredentialId (credentialId : String) : Option WalletAccount :=
  let variants := credentialIdLookupVariants credentialId
  let byAccount := variants.findSome? fun id =>
    c.db.accounts.rows.find? fun account => account.credentialId = some id
  match byAccount with
  | some account => some account
  | none =>
    let byDevice := variants.findSome? fun id => (devicesByCredentialId c id).head?
    match byDevice with
    | some device => getWalletAccount c device.walletAddress
    | none =>
      let accountRow := (c.db.accounts.rows.filter fun account =>
        hasCredential account.credentialId).find?
          fun account => credentialIdsMatch account.credentialId (some credentialId)
      match accountRow with
      | some account => some account
      | none =>
        let deviceRow := (c.db.devices.rows.filter fun device =>
          hasCredential device.credentialId).find?
            fun device => credentialIdsMatch device.credentialId (some credentialId)
        match deviceRow with
        | some device => getWalletAccount c device.walletAddress
        | none =>
          match getIdentityMethodByCredentialId c.db credentialId with
          | some method => (listWalletAccountsByIdentityId c method.identityId).head?
          | none => none

end OnchainInvoice.WebAuthn
