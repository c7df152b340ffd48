import OnchainInvoice.Lib.Digits
import OnchainInvoice.Lib.Revert
import OnchainInvoice.Lib.Trimming
import OnchainInvoice.Shared.PayLink

/-!
# Pay links that are read back

A pay link that was read is written as one that reads the same, but for the seed, which is no part
of a link, and for the slippage, which is written as a whole number if it is finite.
-/

namespace OnchainInvoice.PayLink

open Lib.UrlEncoding Lib.Revert
open Persist (trim)
open Lib.Casing (isWhite)

/-! ## Texts -/

def Trimmed (t : Text) : Prop := t ≠ [] ∧ trim t = t

-- What may stand in a list that is joined by commas.
def Item (t : Text) : Prop := Trimmed t ∧ ',' ∉ t

variable {t value : Text} {items : List Text}

theorem trim_trim (t : Text) : trim (trim t) = trim t := Lib.Trimming.trimmed_trimmed isWhite t

theorem mem_of_mem_trim {c : Char} (h : c ∈ trim t) : c ∈ t :=
  (List.dropWhile_suffix isWhite).mem ((List.rdropWhile_prefix isWhite _).mem h)

theorem notMem_of_mem_splitOn {sep : Char} {piece : Text} (h : piece ∈ t.splitOn sep) :
    sep ∉ piece := by
  induction t generalizing piece with
  | nil =>
    rw [List.splitOn_nil, List.mem_singleton] at h
    rw [h]
    exact List.not_mem_nil
  | cons c t ih =>
    rw [List.splitOn_cons_eq_if_modifyHead] at h
    split at h
    · rcases List.mem_cons.mp h with rfl | hmem
      · exact List.not_mem_nil
      · exact ih hmem
    · rename_i hc
      cases hpieces : t.splitOn sep with
      | nil => exact absurd hpieces (List.splitOn_ne_nil sep t)
      | cons first rest =>
        rw [hpieces, List.modifyHead_cons] at h
        rcases List.mem_cons.mp h with rfl | hmem
        · have hfirst : sep ∉ first := ih (hpieces ▸ List.mem_cons_self)
          have hsep : sep ≠ c := by
            rintro rfl
            exact hc BEq.rfl
          exact List.not_mem_cons_of_ne_of_not_mem hsep hfirst
        · exact ih (hpieces ▸ List.mem_cons_of_mem first hmem)

theorem item_of_mem_splitList {value : Option Text} (h : t ∈ splitList value) : Item t := by
  unfold splitList at h
  obtain ⟨hmem, hne⟩ := List.mem_filter.mp h
  obtain ⟨piece, hpiece, rfl⟩ := List.mem_map.mp hmem
  refine ⟨⟨of_decide_eq_true hne, trim_trim piece⟩, fun hcomma => ?_⟩
  exact notMem_of_mem_splitOn hpiece (mem_of_mem_trim hcomma)

/-- Items are the pieces of the text that they are joined to. -/
theorem splitList_join (h : ∀ t ∈ items, Item t) : splitList (some (join items)) = items := by
  unfold splitList join
  by_cases hitems : items = []
  · subst hitems
    decide
  · have hsplit : (([','].intercalate items).splitOn ',') = items :=
      List.splitOn_intercalate ',' (fun t ht => (h t ht).2) hitems
    have htrim : items.map trim = items := by
      calc items.map trim
        _ = items.map id := List.map_congr_left fun t ht => (h t ht).1.2
        _ = items := List.map_id items
    rw [Option.getD_some, hsplit, htrim]
    exact List.filter_eq_self.mpr fun t ht => decide_eq_true (h t ht).1.1

theorem map_splitList_join {f : Text → Text} (h : ∀ t ∈ items, Item t ∧ f t = t) :
    (splitList (some (join items))).map f = items := by
  rw [splitList_join fun t ht => (h t ht).1]
  calc items.map f
    _ = items.map id := List.map_congr_left fun t ht => (h t ht).2
    _ = items := List.map_id _

/-! ## Parameters -/

variable {params : Pairs}

theorem get_set (params : Pairs) (name : String) (value : Text) (other : String) :
    get (set params name value) other = if other = name then some value else get params other := by
  induction params with
  | nil =>
    unfold set get
    by_cases hname : other = name
    · simp [hname]
    · simp [hname, String.toList_inj, Ne.symm hname]
  | cons pair params ih =>
    unfold set
    by_cases hpair : pair.1 = name.toList
    · rw [if_pos hpair]
      by_cases hname : other = name
      · simp [get, hname]
      · -- what goes with the first pair of the name is no pair of the other one
        have hother : name.toList ≠ other.toList := by
          rw [Ne, String.toList_inj]
          exact Ne.symm hname
        have hfind : (params.filter fun p => p.1 ≠ name.toList).find?
            (fun p => p.1 = other.toList) = params.find? fun p => p.1 = other.toList := by
          rw [List.find?_filter]
          congr 1
          funext p
          by_cases hp : p.1 = other.toList
          · simp [hp, Ne.symm hother]
          · simp [hp]
        rw [if_neg hname]
        unfold get
        rw [List.find?_cons_of_neg (by simpa using hother), hfind,
          List.find?_cons_of_neg (by simpa [hpair] using hother)]
    · rw [if_neg hpair]
      unfold get at ih ⊢
      by_cases hother : pair.1 = other.toList
      · have hname : other ≠ name := by
          rintro rfl
          exact hpair hother
        rw [List.find?_cons_of_pos (by simpa using hother), if_neg hname,
          List.find?_cons_of_pos (by simpa using hother)]
      · rw [List.find?_cons_of_neg (by simpa using hother), ih,
          List.find?_cons_of_neg (by simpa using hother)]

theorem get_setSome (params : Pairs) (name : String) (value : Option Text) (other : String) :
    get (setSome params name value) other =
      if other = name then value.or (get params other) else get params other := by
  cases value with
  | none => simp [setSome]
  | some value =>
    unfold setSome
    rw [get_set, Option.some_or]

theorem optionalParam_eq_some {name : String} (h : optionalParam params name = some t) :
    Trimmed t := by
  unfold optionalParam at h
  obtain ⟨h, hne⟩ := Option.filter_eq_some_iff.mp h
  obtain ⟨value, -, rfl⟩ := Option.map_eq_some_iff.mp h
  exact ⟨of_decide_eq_true hne, trim_trim value⟩

theorem optionalParam_of_get {name : String} {value : Option Text}
    (h : get params name = value) (hvalue : ∀ t ∈ value, Trimmed t) :
    optionalParam params name = value := by
  unfold optionalParam
  rw [h]
  cases value with
  | none => rfl
  | some t =>
    obtain ⟨hne, htrim⟩ := hvalue t rfl
    rw [Option.map_some, htrim]
    exact Option.filter_eq_some_iff.mpr ⟨rfl, decide_eq_true hne⟩

/-! ## What is documented -/

structure CaseMapping (f : Text → Text) : Prop where
  again : ∀ t, f (f t) = f t
  trimmed : ∀ t, Trimmed t → Trimmed (f t)
  comma : ∀ t, ',' ∉ t → ',' ∉ f t
  digits : ∀ t, (∀ c ∈ t, c.isDigit = true) → f t = t

structure Documented {N : Type} (out : Outside N) : Prop where
  -- The checksummed address, which is its own reading.
  getAddress : ∀ value address, out.getAddress value = some address →
    out.getAddress address = some address ∧ ∃ digits, address = '0' :: 'x' :: digits ∧
      ∀ c ∈ digits, (Lib.ByteTexts.hexValue c).isSome
  -- Of the texts of 32 bytes, each is the base 58 form of what it is read as.
  publicKey : ∀ value address, out.publicKey value = some address → address = value
  upper : CaseMapping out.toUpperCase
  lower : CaseMapping out.toLowerCase
  number : ∀ n, out.isFinite n = true → Trimmed (out.numberText (out.round n)) ∧
    out.number (out.numberText (out.round n)) = out.round n

variable {N : Type} {out : Outside N}

/-! ## Addresses -/

theorem notWhite_of_bounds {c : Char} (hlow : 48 ≤ c.toNat) (hhigh : c.toNat < 103) :
    isWhite c = false ∧ c ≠ ',' := by
  have hall : ∀ n : Fin 103, 48 ≤ n.val →
      isWhite (Char.ofNat n.val) = false ∧ Char.ofNat n.val ≠ ',' := by decide +kernel
  have hc := hall ⟨c.toNat, hhigh⟩ hlow
  rwa [Char.ofNat_toNat] at hc

theorem hex_spec {c : Char} (h : (Lib.ByteTexts.hexValue c).isSome) :
    isWhite c = false ∧ c ≠ ',' := by
  have hbounds : (48 ≤ c.toNat ∧ c.toNat ≤ 57) ∨ (97 ≤ c.toNat ∧ c.toNat ≤ 102) ∨
      (65 ≤ c.toNat ∧ c.toNat ≤ 70) := by
    unfold Lib.ByteTexts.hexValue at h
    split at h
    · rename_i hdigit
      exact .inl hdigit
    · split at h
      · rename_i hsmall
        exact .inr (.inl hsmall)
      · split at h
        · rename_i hlarge
          exact .inr (.inr hlarge)
        · cases h
  exact notWhite_of_bounds (by omega) (by omega)

theorem trimmed_of_notWhite (hne : t ≠ []) (h : ∀ c ∈ t, isWhite c = false) : Trimmed t := by
  have hbare : Lib.Trimming.Bare isWhite t := by
    apply Lib.Trimming.Bare.mk
    · exact fun c hc => h c (List.mem_of_mem_head? hc)
    · exact fun c hc => h c (List.mem_of_getLast? hc)
  have htrim : trim ([] ++ t ++ []) = t :=
    Lib.Trimming.trimmed_of_bare (by simp) (by simp) hbare
  rw [List.nil_append, List.append_nil] at htrim
  exact ⟨hne, htrim⟩

theorem item_of_hex {digits : Text} (h : ∀ c ∈ digits, (Lib.ByteTexts.hexValue c).isSome) :
    Item ('0' :: 'x' :: digits) := by
  have hchars : ∀ c ∈ '0' :: 'x' :: digits, isWhite c = false ∧ c ≠ ',' := by
    rw [List.forall_mem_cons, List.forall_mem_cons]
    exact ⟨by decide, by decide, fun c hc => hex_spec (h c hc)⟩
  apply And.intro
  · exact trimmed_of_notWhite (List.cons_ne_nil _ _) fun c hc => (hchars c hc).1
  · exact fun hcomma => (hchars ',' hcomma).2 rfl

theorem normalizeTo_of_getAddress {value address : Text} (hdoc : Documented out)
    (h : out.getAddress value = some address) :
    Item address ∧ normalizeTo out address = address := by
  obtain ⟨hagain, digits, rfl, hdigits⟩ := hdoc.getAddress value address h
  have hitem := item_of_hex hdigits
  refine ⟨hitem, ?_⟩
  have hstart : startsWith ('0' :: 'x' :: digits) "0x" = true := rfl
  unfold normalizeTo normalizeMerchantAddress
  simp only [hitem.1.2, hstart, Bool.true_or, if_true, if_neg hitem.1.1, getAddress, hagain]

/-- What is made of an address is an item of a list again, and the same is made of it. -/
theorem normalizeTo_item (hdoc : Documented out) (hitem : Item value) :
    Item (normalizeTo out value) ∧
      normalizeTo out (normalizeTo out value) = normalizeTo out value := by
  have hsame : normalizeTo out value = value ∨
      ∃ from_, out.getAddress from_ = some (normalizeTo out value) := by
    unfold normalizeTo
    split
    · rename_i address haddress
      unfold normalizeMerchantAddress at haddress
      simp only [hitem.1.2, if_neg hitem.1.1] at haddress
      split at haddress
      · unfold getAddress at haddress
        split at haddress
        · rename_i address' hread
          cases haddress
          exact .inr ⟨value, hread⟩
        · contradiction
      · split at haddress
        · split at haddress
          · contradiction
          · cases haddress
            exact .inl rfl
        · split at haddress
          · split at haddress
            · rename_i address' hread
              cases haddress
              exact .inl (hdoc.publicKey value address hread)
            · contradiction
          · contradiction
    · unfold getAddress
      split
      · rename_i haddress
        split at haddress
        · rename_i address' hread
          cases haddress
          exact .inr ⟨value, hread⟩
        · contradiction
      · exact .inl rfl
  rcases hsame with hsame | ⟨from_, haddress⟩
  · rw [hsame]
    exact ⟨hitem, hsame⟩
  · exact normalizeTo_of_getAddress hdoc haddress

/-! ## Fields that were read -/

def Each (o : Option Text) (f : Text → Text) : Prop := ∀ t ∈ o, Trimmed t ∧ f t = t

structure Normal (out : Outside N) (fields : PayLinkFields N) : Prop where
  price : Trimmed fields.price
  to_ : ∀ t ∈ fields.to_, Item t ∧ normalizeTo out t = t
  chains : ∀ t ∈ fields.chains, Item t
  tokens : ∀ t ∈ fields.tokens, Item t ∧ out.toUpperCase t = t
  clientInvoiceId : Each fields.clientInvoiceId id
  callback : Each fields.callback id
  title : Each fields.title id
  description : Each fields.description id
  displayFiat : Each fields.displayFiat out.toUpperCase
  displayAmount : Each fields.displayAmount id
  quoteCountry : Each fields.quoteCountry out.toLowerCase
  quotePaymentMethod : Each fields.quotePaymentMethod out.toLowerCase
  quoteProvider : Each fields.quoteProvider out.toLowerCase
  lang : Each fields.lang id

variable {fields : PayLinkFields N} {input : PayLinkInput}

theorem each_optionalParam (params : Pairs) (name : String) :
    Each (optionalParam params name) id :=
  fun _ ht => ⟨optionalParam_eq_some ht, rfl⟩

theorem each_eitherParam (params : Pairs) (name camelCase : String) :
    Each (eitherParam params name camelCase) id := by
  intro t ht
  rcases Option.or_eq_some_iff.mp ht with h | ⟨-, h⟩
  · exact each_optionalParam params name t h
  · exact each_optionalParam params camelCase t h

theorem CaseMapping.each {f : Text → Text} {o : Option Text} (hf : CaseMapping f) (h : Each o id) :
    Each (o.map f) f := by
  intro t ht
  obtain ⟨s, hs, rfl⟩ := Option.map_eq_some_iff.mp ht
  exact ⟨hf.trimmed s (h s hs).1, hf.again s⟩

theorem CaseMapping.list {f : Text → Text} (hf : CaseMapping f) (h : ∀ s ∈ items, Item s) :
    ∀ t ∈ items.map f, Item t ∧ f t = t := by
  intro t ht
  obtain ⟨s, hs, rfl⟩ := List.mem_map.mp ht
  exact ⟨⟨hf.trimmed s (h s hs).1, hf.comma s (h s hs).2⟩, hf.again s⟩

theorem normal_of_decode (hdoc : Documented out) (h : decodePayLink out input = .ok fields) :
    Normal out fields := by
  unfold decodePayLink at h
  simp only [bind_eq_ok, pure_eq_ok] at h
  obtain ⟨mode, -, price, hprice, rfl⟩ := h
  apply Normal.mk
  · unfold requiredParam at hprice
    split at hprice
    · rename_i value hvalue
      cases hprice
      exact optionalParam_eq_some hvalue
    · contradiction
  · intro t ht
    obtain ⟨value, hvalue, rfl⟩ := List.mem_map.mp ht
    exact normalizeTo_item hdoc (item_of_mem_splitList hvalue)
  · exact fun t ht => item_of_mem_splitList ht
  · exact hdoc.upper.list fun t ht => item_of_mem_splitList ht
  · exact each_optionalParam _ _
  · exact each_optionalParam _ _
  · exact each_optionalParam _ _
  · exact each_optionalParam _ _
  · exact hdoc.upper.each (each_eitherParam _ _ _)
  · exact each_eitherParam _ _ _
  · exact hdoc.lower.each (each_eitherParam _ _ _)
  · exact hdoc.lower.each (each_eitherParam _ _ _)
  · exact hdoc.lower.each (each_eitherParam _ _ _)
  · exact each_eitherParam _ _ _

/-! ## Reading what is written -/

/-- What reading a link and writing it again changes. -/
def rewritten (out : Outside N) (fields : PayLinkFields N) : PayLinkFields N :=
  { fields with
    invoiceSeed := none
    quoteSlippageBps := (fields.quoteSlippageBps.filter out.isFinite).map out.round }

theorem searchParams_encode (out : Outside N) (fields : PayLinkFields N) :
    (PayLinkInput.query (encodePayLink out fields)).searchParams = encodeParams out fields := by
  have hmark : (encodePayLink out fields).head? ≠ some '?' := by
    intro h
    exact questionMark_notMem _ (List.mem_of_mem_head? h)
  unfold PayLinkInput.searchParams urlSearchParams
  dsimp only
  rw [if_neg hmark, if_neg hmark]
  exact parse_serialize _

theorem Each.trimmed {o : Option Text} {f : Text → Text} (h : Each o f) : ∀ t ∈ o, Trimmed t :=
  fun t ht => (h t ht).1

theorem Each.map {o : Option Text} {f : Text → Text} (h : Each o f) : o.map f = o := by
  cases o with
  | none => rfl
  | some t => rw [Option.map_some, (h t rfl).2]

theorem setIf_eq {o : Option Text} {f : Text → Text} (h : Each o f) (params : Pairs)
    (name : String) : setIf params name o = setSome params name o := by
  unfold setIf
  cases o with
  | none => rfl
  | some t =>
    have hfilter : (some t).filter (· ≠ []) = some t :=
      Option.filter_eq_some_iff.mpr ⟨rfl, decide_eq_true (h t rfl).1.1⟩
    rw [hfilter]

/-- Parameters of different names are read as they are set. -/
theorem get_foldl {entries : List (String × Option Text)} (hnodup : (entries.map Prod.fst).Nodup)
    (params : Pairs) (name : String) :
    get (entries.foldl (fun params entry => setSome params entry.1 entry.2) params) name =
      ((entries.find? fun entry => entry.1 = name).bind Prod.snd).or (get params name) := by
  induction entries generalizing params with
  | nil => rfl
  | cons entry entries ih =>
    obtain ⟨hnew, hrest⟩ := List.nodup_cons.mp hnodup
    rw [List.foldl_cons, ih hrest, get_setSome]
    by_cases hname : entry.1 = name
    · have hnone : entries.find? (fun other => other.1 = name) = none := by
        rw [List.find?_eq_none]
        intro other hother heq
        apply hnew
        rw [hname, ← of_decide_eq_true heq]
        exact List.mem_map_of_mem hother
      rw [hnone, if_pos hname.symm, List.find?_cons_of_pos (by simpa using hname)]
      rfl
    · rw [if_neg (Ne.symm hname), List.find?_cons_of_neg (by simpa using hname)]

theorem slippageText_trimmed (hdoc : Documented out) :
    ∀ t ∈ slippageText out fields, Trimmed t := by
  intro t ht
  obtain ⟨bps, hbps, rfl⟩ := Option.map_eq_some_iff.mp ht
  exact (hdoc.number bps (Option.filter_eq_some_iff.mp hbps).2).1

theorem number_slippageText (hdoc : Documented out) :
    (slippageText out fields).map out.number = (rewritten out fields).quoteSlippageBps := by
  unfold slippageText rewritten
  cases hbps : fields.quoteSlippageBps.filter out.isFinite with
  | none => rfl
  | some bps =>
    have hfinite := (Option.filter_eq_some_iff.mp hbps).2
    rw [Option.map_some, Option.map_some, Option.map_some, (hdoc.number bps hfinite).2]

theorem parsePaymentMode_modeText (fields : PayLinkFields N) :
    parsePaymentMode (modeText fields) = .ok fields.paymentMode := by
  unfold modeText
  cases fields.paymentMode <;> decide +kernel

theorem parseBoolean_digit (hdoc : Documented out) (allowed : Bool) :
    parseBoolean out (some (if allowed then ['1'] else ['0'])) = allowed := by
  cases allowed with
  | true => rfl
  | false =>
    have hlower : out.toLowerCase ['0'] = ['0'] := by
      apply hdoc.lower.digits
      intro c hc
      rw [List.mem_singleton.mp hc]
      rfl
    unfold parseBoolean
    simp only [hlower, Bool.false_eq_true, if_false]
    decide +kernel

def written (out : Outside N) (fields : PayLinkFields N) : List (String × Option Text) :=
  [("price", some fields.price), ("to", some (join fields.to_)),
    ("chains", some (join fields.chains)), ("tokens", some (join fields.tokens)),
    ("client_invoice_id", fields.clientInvoiceId), ("callback", fields.callback),
    ("title", fields.title), ("description", fields.description),
    ("allow_partial", some (if fields.allowPartial then ['1'] else ['0'])),
    ("payment_mode", modeText fields), ("display_fiat", fields.displayFiat),
    ("display_amount", fields.displayAmount), ("quote_country", fields.quoteCountry),
    ("quote_payment_method", fields.quotePaymentMethod), ("quote_provider", fields.quoteProvider),
    ("quote_slippage_bps", slippageText out fields), ("lang", fields.lang)]

theorem get_encodeParams (hnormal : Normal out fields) (name : String) :
    get (encodeParams out fields) name =
      ((written out fields).find? fun entry => entry.1 = name).bind Prod.snd := by
  have hparams : encodeParams out fields =
      (written out fields).foldl (fun params entry => setSome params entry.1 entry.2) [] := by
    unfold encodeParams
    simp only [setIf_eq hnormal.lang, setIf_eq hnormal.quoteProvider,
      setIf_eq hnormal.quotePaymentMethod, setIf_eq hnormal.quoteCountry,
      setIf_eq hnormal.displayAmount, setIf_eq hnormal.displayFiat, setIf_eq hnormal.description,
      setIf_eq hnormal.title, setIf_eq hnormal.callback, setIf_eq hnormal.clientInvoiceId]
    rfl
  have hnodup : ((written out fields).map Prod.fst).Nodup := by
    change ["price", "to", "chains", "tokens", "client_invoice_id", "callback", "title",
      "description", "allow_partial", "payment_mode", "display_fiat", "display_amount",
      "quote_country", "quote_payment_method", "quote_provider", "quote_slippage_bps",
      "lang"].Nodup
    decide
  rw [hparams, get_foldl hnodup]
  exact Option.or_none

theorem eitherParam_of_get {name camelCase : String} {o : Option Text}
    (h : get params name = o) (hcamel : get params camelCase = none) (ho : ∀ t ∈ o, Trimmed t) :
    eitherParam params name camelCase = o := by
  unfold eitherParam
  rw [optionalParam_of_get h ho, optionalParam_of_get hcamel (by simp), Option.or_none]

theorem modeText_trimmed (fields : PayLinkFields N) : ∀ t ∈ modeText fields, Trimmed t := by
  unfold modeText Trimmed
  cases fields.paymentMode <;> decide +kernel

/-- A link that is written for fields in normal form is read as the fields that were written. -/
theorem decode_encode (hdoc : Documented out) (hnormal : Normal out fields) :
    decodePayLink out (.query (encodePayLink out fields)) = .ok (rewritten out fields) := by
  have hget := get_encodeParams hnormal
  rw [decodePayLink, searchParams_encode]
  generalize encodeParams out fields = params at hget ⊢
  have hprice : requiredParam params "price" = .ok fields.price := by
    have hread := optionalParam_of_get (hget "price") fun t ht => by
      cases ht
      exact hnormal.price
    unfold requiredParam
    rw [hread]
    rfl
  have hmode : eitherParam params "payment_mode" "paymentMode" = modeText fields :=
    eitherParam_of_get (hget _) (hget _) (modeText_trimmed fields)
  have hfiat : eitherParam params "display_fiat" "displayFiat" = fields.displayFiat :=
    eitherParam_of_get (hget _) (hget _) hnormal.displayFiat.trimmed
  have hamount : eitherParam params "display_amount" "displayAmount" = fields.displayAmount :=
    eitherParam_of_get (hget _) (hget _) hnormal.displayAmount.trimmed
  have hcountry : eitherParam params "quote_country" "quoteCountry" = fields.quoteCountry :=
    eitherParam_of_get (hget _) (hget _) hnormal.quoteCountry.trimmed
  have hmethod : eitherParam params "quote_payment_method" "quotePaymentMethod" =
      fields.quotePaymentMethod :=
    eitherParam_of_get (hget _) (hget _) hnormal.quotePaymentMethod.trimmed
  have hprovider : eitherParam params "quote_provider" "quoteProvider" = fields.quoteProvider :=
    eitherParam_of_get (hget _) (hget _) hnormal.quoteProvider.trimmed
  have hslippage : eitherParam params "quote_slippage_bps" "quoteSlippageBps" =
      slippageText out fields :=
    eitherParam_of_get (hget _) (hget _) (slippageText_trimmed hdoc)
  have hlang : eitherParam params "lang" "locale" = fields.lang :=
    eitherParam_of_get (hget _) (hget _) hnormal.lang.trimmed
  have hclient : optionalParam params "client_invoice_id" = fields.clientInvoiceId :=
    optionalParam_of_get (hget _) hnormal.clientInvoiceId.trimmed
  have hcallback : optionalParam params "callback" = fields.callback :=
    optionalParam_of_get (hget _) hnormal.callback.trimmed
  have htitle : optionalParam params "title" = fields.title :=
    optionalParam_of_get (hget _) hnormal.title.trimmed
  have hdescription : optionalParam params "description" = fields.description :=
    optionalParam_of_get (hget _) hnormal.description.trimmed
  have hseed : optionalParam params "invoice_seed" = none := optionalParam_of_get (hget _) nofun
  have hread : get params "to" = some (join fields.to_) ∧
      get params "chains" = some (join fields.chains) ∧
      get params "tokens" = some (join fields.tokens) ∧
      get params "allow_partial" = some (if fields.allowPartial then ['1'] else ['0']) :=
    ⟨hget _, hget _, hget _, hget _⟩
  obtain ⟨hreadTo, hreadChains, hreadTokens, hreadPartial⟩ := hread
  rw [hmode, parsePaymentMode_modeText, hprice]
  simp only [hreadTo, map_splitList_join hnormal.to_, hreadChains, Option.getD_some,
    splitList_join hnormal.chains, hreadTokens, map_splitList_join hnormal.tokens, hreadPartial,
    parseBoolean_digit hdoc, hseed, hclient, hcallback, htitle, hdescription, hfiat, hamount,
    hcountry, hmethod, hprovider, hslippage, hlang, hnormal.displayFiat.map,
    hnormal.quoteCountry.map, hnormal.quotePaymentMethod.map, hnormal.quoteProvider.map,
    number_slippageText hdoc]
  rfl

/-- Whatever a link was read from, writing it again gives a link that is read as the same fields,
but for the seed and for a slippage that is no whole number. -/
theorem readBack_of_decode (hdoc : Documented out) (h : decodePayLink out input = .ok fields) :
    decodePayLink out (.query (encodePayLink out fields)) = .ok (rewritten out fields) :=
  decode_encode hdoc (normal_of_decode hdoc h)

/-! ## A link with a fraction -/

-- Halves of natural numbers, and `none` for what is no finite number.
abbrev Half := Option ℕ

def halfOf (t : Text) : Half :=
  if t.takeWhile Char.isDigit = [] then none
  else
    let whole := 2 * Nat.ofDigitChars 10 (t.takeWhile Char.isDigit) 0
    if t.dropWhile Char.isDigit = [] then some whole
    else if t.dropWhile Char.isDigit = ['.', '5'] then some (whole + 1)
    else none

def halfText : Half → Text
  | none => "NaN".toList
  | some k => Nat.toDigits 10 (k / 2) ++ if k % 2 = 1 then ['.', '5'] else []

def roundHalf (n : Half) : Half := n.map fun k => (k + 1) / 2 * 2

def sampleAddress : Text := "0x52908400098527886E0F7030069857D2E4169EE7".toList

-- ASCII letters, one address, and numbers with at most one half.
def sampleOutside : Outside Half where
  getAddress := fun value =>
    if value = sampleAddress ∨ value = sampleAddress.map Char.toLower then some sampleAddress
    else none
  tronIsAddress := fun _ => false
  publicKey := fun _ => none
  toUpperCase := List.map Char.toUpper
  toLowerCase := List.map Char.toLower
  number := halfOf
  numberText := halfText
  round := roundHalf
  isFinite := Option.isSome

def CaseChar (f : Char → Char) (c : Char) : Prop :=
  f (f c) = f c ∧ isWhite (f c) = isWhite c ∧ (f c = ',' → c = ',') ∧ (c.isDigit = true → f c = c)

instance (f : Char → Char) (c : Char) : Decidable (CaseChar f c) :=
  inferInstanceAs (Decidable (_ ∧ _))

theorem caseMapping_map {f : Char → Char} (h : ∀ c, CaseChar f c) : CaseMapping (List.map f) := by
  apply CaseMapping.mk
  · intro t
    rw [List.map_map]
    exact List.map_congr_left fun c _ => (h c).1
  · intro t ht
    have hwhite : isWhite ∘ f = isWhite := funext fun c => (h c).2.1
    have htrim : trim (t.map f) = (trim t).map f := by
      unfold trim List.rdropWhile
      rw [List.dropWhile_map, hwhite, ← List.map_reverse, List.dropWhile_map, hwhite,
        List.map_reverse]
    refine ⟨?_, by rw [htrim, ht.2]⟩
    simpa using ht.1
  · intro t ht hcomma
    obtain ⟨c, hc, heq⟩ := List.mem_map.mp hcomma
    exact ht ((h c).2.2.1 heq ▸ hc)
  · intro t ht
    calc t.map f
      _ = t.map id := List.map_congr_left fun c hc => (h c).2.2.2 (ht c hc)
      _ = t := List.map_id t

theorem caseChar_of_ascii {f : Char → Char} (hwide : ∀ c, 128 ≤ c.toNat → f c = c)
    (hascii : ∀ n : Fin 128, CaseChar f (Char.ofNat n.val)) (c : Char) : CaseChar f c := by
  by_cases hc : c.toNat < 128
  · have h := hascii ⟨c.toNat, hc⟩
    rwa [Char.ofNat_toNat] at h
  · have hsame := hwide c (Nat.le_of_not_lt hc)
    unfold CaseChar
    rw [hsame, hsame]
    exact ⟨rfl, rfl, id, fun _ => rfl⟩

theorem halfText_round (n : Half) (h : n.isSome = true) :
    Trimmed (halfText (roundHalf n)) ∧ halfOf (halfText (roundHalf n)) = roundHalf n := by
  obtain ⟨k, rfl⟩ := Option.isSome_iff_exists.mp h
  have htext : halfText (roundHalf (some k)) = Nat.toDigits 10 ((k + 1) / 2) := by
    have hhalf : (k + 1) / 2 * 2 / 2 = (k + 1) / 2 := by omega
    have heven : (k + 1) / 2 * 2 % 2 ≠ 1 := by omega
    simp only [roundHalf, Option.map_some, halfText, hhalf, if_neg heven, List.append_nil]
  have hdigits : ∀ c ∈ Nat.toDigits 10 ((k + 1) / 2), c.isDigit = true :=
    fun c hc => Nat.isDigit_of_mem_toDigits (by decide) (by decide) hc
  rw [htext]
  apply And.intro
  · apply trimmed_of_notWhite Nat.toDigits_ne_nil
    intro c hc
    have hbounds := Lib.Digits.digit_bounds (hdigits c hc)
    exact (notWhite_of_bounds (by omega) (by omega)).1
  · unfold halfOf
    rw [List.takeWhile_eq_self_iff.mpr hdigits, if_neg Nat.toDigits_ne_nil,
      List.dropWhile_eq_nil_iff.mpr hdigits, if_pos rfl, Nat.ofDigitChars_ten_toDigits,
      Nat.mul_comm 2]
    rfl

theorem documented_sample : Documented sampleOutside := by
  apply Documented.mk
  · intro value address h
    change (if value = sampleAddress ∨ value = sampleAddress.map Char.toLower then
      some sampleAddress else none) = some address at h
    split at h
    · cases h
      have hhex : (sampleAddress.drop 2).all
          (fun c => (Lib.ByteTexts.hexValue c).isSome) = true := by decide +kernel
      exact ⟨by decide +kernel, sampleAddress.drop 2, rfl, List.all_eq_true.mp hhex⟩
    · contradiction
  · intro value address h
    cases h
  · apply caseMapping_map
    apply caseChar_of_ascii
    · intro c hc
      exact dif_neg fun h => absurd (Nat.le_trans hc h.2) (by decide)
    · decide +kernel
  · apply caseMapping_map
    apply caseChar_of_ascii
    · intro c hc
      exact dif_neg fun h => absurd (Nat.le_trans hc h.2) (by decide)
    · decide +kernel
  · exact halfText_round

def sampleLink : Text :=
  ("?price=12.50&to=0x52908400098527886e0f7030069857d2e4169ee7,+other&tokens=usdc,usdt&title=A+b" ++
    "%26c&invoice_seed=1&payment_mode=fiat&quoteSlippageBps=12.5").toList

theorem sampleLink_decodes :
    ∃ fields, decodePayLink sampleOutside (.query sampleLink) = .ok fields ∧
      fields.quoteSlippageBps = some (some 25) := by
  have hread : (decodePayLink sampleOutside (.query sampleLink)).toOption.bind
      (fun fields => fields.quoteSlippageBps) = some (some 25) := by decide +kernel
  cases h : decodePayLink sampleOutside (.query sampleLink) with
  | error e =>
    rw [h] at hread
    cases hread
  | ok fields =>
    rw [h] at hread
    exact ⟨fields, rfl, hread⟩

theorem readBack_of_sampleLink : ∃ fields,
    decodePayLink sampleOutside (.query sampleLink) = .ok fields ∧
      decodePayLink sampleOutside (.query (encodePayLink sampleOutside fields)) =
        .ok (rewritten sampleOutside fields) := by
  obtain ⟨fields, h, -⟩ := sampleLink_decodes
  exact ⟨fields, h, readBack_of_decode documented_sample h⟩

-- A slippage of 12.5 is read, written as 13 and read as 13.
theorem slippage_rounded : Documented sampleOutside ∧ ∃ fields fields',
    decodePayLink sampleOutside (.query sampleLink) = .ok fields ∧
      decodePayLink sampleOutside (.query (encodePayLink sampleOutside fields)) = .ok fields' ∧
      fields' ≠ { fields with invoiceSeed := none } := by
  obtain ⟨fields, h, hslippage⟩ := sampleLink_decodes
  refine ⟨documented_sample, fields, rewritten sampleOutside fields, h,
    decode_encode documented_sample (normal_of_decode documented_sample h), ?_⟩
  intro heq
  have hsame := congrArg PayLinkFields.quoteSlippageBps heq
  change (fields.quoteSlippageBps.filter Option.isSome).map roundHalf =
    fields.quoteSlippageBps at hsame
  rw [hslippage] at hsame
  cases hsame

end OnchainInvoice.PayLink
