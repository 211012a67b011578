import DepaKms.ServiceReleases
import DepaKms.Receipts

set_option autoImplicit false

/-!
# Asking for a key by its kid

The query of a request is text. What a client writes as parameters is read back as such,
and decides which key `pubkey` and `key` answer with, and in which format.
-/
namespace DepaKms

theorem splitString_join {separator : Char} {parts : List String}
    (hparts : ∀ s ∈ parts, separator ∉ s.toList) (hne : parts ≠ []) :
    splitString separator (String.intercalate (String.singleton separator) parts) = parts := by
  unfold splitString
  rw [String.toList_intercalate, String.toList_singleton, List.splitOn_intercalate separator
    (by simpa using hparts) (by simpa using hne), List.map_map]
  simp

theorem splitString_first {separator : Char} {s : String} (hs : separator ∉ s.toList)
    (rest : String) :
    splitString separator (s ++ String.singleton separator ++ rest) =
      s :: splitString separator rest := by
  unfold splitString
  have hnone : ∀ c ∈ s.toList, (c == separator) = false := by
    intro c hc
    rw [beq_eq_false_iff_ne]
    rintro rfl
    exact hs hc
  rw [String.toList_append, String.toList_append, String.toList_singleton, List.append_assoc,
    List.singleton_append, List.splitOn_eq_splitOnP,
    List.splitOnP_append_cons_of_forall_mem hnone separator (beq_self_eq_true _), List.map_cons,
    String.ofList_toList]
  rfl

/-- The parameters as a client writes them. -/
def writeQuery (params : List (String × String)) : String :=
  String.intercalate "&" (params.map fun p => p.1 ++ "=" ++ p.2)

/-- The parameter has no character that separates. -/
structure Writable (p : String × String) : Prop where
  name : '&' ∉ p.1.toList
  value : '&' ∉ p.2.toList
  unassigned : '=' ∉ p.1.toList

/-- The value that stands last under the name, up to its first equals sign. -/
def asked (params : List (String × String)) (name : String) : Option String :=
  (lastOf (fun p => p.1 == name) params).bind fun p => (splitString '=' p.2)[0]?

def readParameter (obj : Query) (element : String) : Query :=
  assign obj (undefinedText (splitString '=' element)[0]?) (splitString '=' element)[1]?

theorem readParameter_write {p : String × String} (hp : Writable p) (obj : Query) :
    readParameter obj (p.1 ++ "=" ++ p.2) = assign obj p.1 (splitString '=' p.2)[0]? := by
  have hsplit : splitString '=' (p.1 ++ "=" ++ p.2) = p.1 :: splitString '=' p.2 :=
    splitString_first hp.unassigned p.2
  unfold readParameter
  rw [hsplit]
  rfl

/-- Parameter after parameter, the last value under a name is the one that is found. -/
theorem lookup_parameters {params : List (String × String)} (hp : ∀ p ∈ params, Writable p)
    (name : String) :
    (((params.map fun p => p.1 ++ "=" ++ p.2).foldl readParameter []).lookup name).join =
      asked params name := by
  induction params using List.reverseRecOn with
  | nil => rfl
  | append_singleton params p ih =>
    obtain ⟨hparams, hlast⟩ := forall_mem_snoc.mp hp
    unfold asked at ih ⊢
    rw [List.map_append, List.map_singleton, List.foldl_append, List.foldl_cons, List.foldl_nil,
      readParameter_write hlast, lookup_assign, lastOf_snoc]
    by_cases hname : name = p.1
    · subst hname
      rw [if_pos rfl, if_pos (by simp)]
      rfl
    · rw [if_neg hname, if_neg (by simpa using fun he => hname he.symm)]
      exact ih hparams

theorem queryGet_writeQuery {params : List (String × String)} (hp : ∀ p ∈ params, Writable p)
    (name : String) :
    queryGet (some (readQuery (writeQuery params))) name = asked params name := by
  by_cases hne : params = []
  · subst hne
    have hread : readQuery (writeQuery []) = [("", none)] := by decide +kernel
    rw [hread]
    cases hname : name == "" <;> simp [queryGet, asked, lastOf, List.lookup, hname]
  · have hsplit : splitString '&' (writeQuery params) = params.map fun p => p.1 ++ "=" ++ p.2 := by
      refine splitString_join (fun s hs => ?_) (by simpa using hne)
      obtain ⟨p, hmem, rfl⟩ := List.mem_map.mp hs
      have hwritable := hp p hmem
      simpa using ⟨hwritable.name, hwritable.value⟩
    change ((((splitString '&' (writeQuery params)).foldl readParameter []).lookup name)).join = _
    rw [hsplit]
    exact lookup_parameters hp name

def askedFmt (params : List (String × String)) : String :=
  ((asked params "fmt").filter fun s => s ≠ "").getD "jwk"

variable {h : Host} {t : Moment} {kv : Kv} {xs : List Transaction} {request : Request}
  {params : List (String × String)} {kid : String}

theorem pubkeySelection_asked {query : Option Query} (hkid : queryGet query "kid" = some kid)
    (hne : kid ≠ "") (logContext : LogContext) :
    (pubkeySelection h t kv query logContext).result = .ok (none, some kid) := by
  unfold pubkeySelection
  rw [hkid]
  simp [Option.filter, hne]

theorem asked_of_service {name : String} {serviceRequest : ServiceRequest}
    (hw : ∀ p ∈ params, Writable p) (hquery : request.query = writeQuery params)
    (hread : ReadAs h t (serviceAfter h kv xs) name request serviceRequest) (parameter : String) :
    queryGet serviceRequest.query parameter = asked params parameter := by
  unfold ReadAs at hread
  rw [result_new (settingsAre_of_service h kv xs)] at hread
  cases hread
  rw [← queryGet_writeQuery hw parameter, ← hquery]
  rfl

theorem requestFmt_of_service {name : String} {serviceRequest : ServiceRequest}
    (hw : ∀ p ∈ params, Writable p) (hquery : request.query = writeQuery params)
    (hread : ReadAs h t (serviceAfter h kv xs) name request serviceRequest) :
    requestFmt serviceRequest = askedFmt params := by
  unfold requestFmt askedFmt
  rw [asked_of_service hw hquery hread]

/-- Whatever was called before, `pubkey` with a kid among its parameters answers just when the
    caller is authenticated and the key that an accepted refresh made under this kid has a receipt,
    and then with its public part in the format that the parameters ask for. -/
theorem pubkey_asked_iff (h : Host) (kv : Kv) (xs : List Transaction) (t : Moment)
    (request : Request) (params : List (String × String)) (kid : String)
    (hw : ∀ p ∈ params, Writable p) (hquery : request.query = writeQuery params)
    (hkid : asked params "kid" = some kid) (hne : kid ≠ "") (response : PublicKeyResponse) :
    answered (pubkey h t (serviceAfter h kv xs) request) = some response ↔
      (∃ serviceRequest, Identified h t (serviceAfter h kv xs) "pubkey" request serviceRequest) ∧
      ∃ maker stored receipt, MadeIn h kv xs maker kid stored ∧
        (serviceAfter h kv xs).hpkeKeys.lookup kid = some stored ∧
        receiptOf t kid stored = some receipt ∧
        PublicKeyIn h stored.item receipt (askedFmt params) response := by
  have hselected {serviceRequest : ServiceRequest}
      (hread : ReadAs h t (serviceAfter h kv xs) "pubkey" request serviceRequest) :
      (pubkeySelection h t (serviceAfter h kv xs) serviceRequest.query
        serviceRequest.logContext).result = .ok (none, some kid) :=
    pubkeySelection_asked ((asked_of_service hw hquery hread "kid").trans hkid) hne _
  rw [pubkey_iff]
  constructor
  · rintro ⟨serviceRequest, hi, hanswered⟩
    rw [pubkeyServe_selected (hselected hi.read), pubkeyBody_iff,
      requestFmt_of_service hw hquery hi.read] at hanswered
    obtain ⟨stored, receipt, hlookup, hreceipt, hpublic⟩ := hanswered
    obtain ⟨maker, hmade⟩ := key_made h kv xs hlookup
    exact ⟨⟨serviceRequest, hi⟩, maker, stored, receipt, hmade, hlookup, hreceipt, hpublic⟩
  · rintro ⟨⟨serviceRequest, hi⟩, maker, stored, receipt, -, hlookup, hreceipt, hpublic⟩
    refine ⟨serviceRequest, hi, ?_⟩
    rw [pubkeyServe_selected (hselected hi.read), pubkeyBody_iff,
      requestFmt_of_service hw hquery hi.read]
    exact ⟨stored, receipt, hlookup, hreceipt, hpublic⟩

def askedParameters : List (String × String) := [("fmt", "tink"), ("kid", sampleKid)]

theorem askedParameters_writable : ∀ p ∈ askedParameters, Writable p := by
  have hkid : '&' ∉ sampleKid.toList := by decide +kernel
  simp only [askedParameters, List.forall_mem_cons]
  exact ⟨⟨by decide, by decide, by decide⟩, ⟨by decide, hkid, by decide⟩, by simp⟩

def withParameters (request : Request) : Request :=
  { request with query := writeQuery askedParameters }

/-- The kid, asked for in the other format than the default one. -/
theorem sample_pubkey_asked : ∃ maker, ∃ stored : StoredItem, ∃ receipt response,
    MadeIn governedHost .empty governedCalls maker sampleKid stored ∧
      PublicKeyIn governedHost stored.item receipt "tink" response := by
  have hanswered : (answered (pubkey governedHost (sampleMoment 1000)
      (serviceAfter governedHost .empty governedCalls)
      (withParameters (requestOf (.obj []) none)))).isSome = true := by
    decide +kernel
  have hfmt : askedFmt askedParameters = "tink" := by decide +kernel
  obtain ⟨response, hresponse⟩ := Option.isSome_iff_exists.mp hanswered
  obtain ⟨-, maker, stored, receipt, hmade, -, -, hpublic⟩ := (pubkey_asked_iff governedHost .empty
    governedCalls (sampleMoment 1000) (withParameters (requestOf (.obj []) none)) askedParameters
    sampleKid askedParameters_writable rfl (by decide +kernel) (by decide +kernel) response).mp
    hresponse
  rw [hfmt] at hpublic
  exact ⟨maker, stored, receipt, response, hmade, hpublic⟩

/-- What `key` answers to a request with this kid and format. -/
structure KeyFor (h : Host) (t : Moment) (kv : Kv) (request : Request) (kid fmt : String)
    (stored : StoredItem) (wrapped : String) : Prop where
  passes : ∃ serviceRequest claims, Identified h t kv "key" request serviceRequest ∧
    Attested h kv serviceRequest.bodyValue claims
  known : fmt = "jwk" ∨ fmt = "tink"
  lookup : kv.hpkeKeys.lookup kid = some stored
  wraps : (keyWrap h t fmt stored.item).result = .ok wrapped

/-- The same of `key`, for an attested caller, with or without a receipt. -/
theorem key_asked_iff (h : Host) (kv : Kv) (xs : List Transaction) (t : Moment)
    (request : Request) (params : List (String × String)) (kid : String)
    (hw : ∀ p ∈ params, Writable p) (hquery : request.query = writeQuery params)
    (hkid : asked params "kid" = some kid) (response : IKeyResponse) :
    answered (key h t (serviceAfter h kv xs) request) = some response ↔
      ∃ maker stored wrapped, MadeIn h kv xs maker kid stored ∧
        KeyFor h t (serviceAfter h kv xs) request kid (askedFmt params) stored wrapped ∧
        response = ⟨kid, wrapped, (receiptOf t kid stored).getD ""⟩ := by
  have hselection {serviceRequest : ServiceRequest}
      (hread : ReadAs h t (serviceAfter h kv xs) "key" request serviceRequest) :
      keySelection (serviceAfter h kv xs) serviceRequest.query = .ok (none, some kid) := by
    unfold keySelection
    rw [asked_of_service hw hquery hread, hkid]
  constructor
  · intro hr
    obtain ⟨serviceRequest, stored, ha, hreceipt⟩ := of_answered (key_ensures request) hr
    obtain ⟨claims, hattested⟩ := ha.attested
    obtain ⟨id, hselected⟩ := ha.selected
    rw [hselection ha.identified.read] at hselected
    cases hselected
    obtain ⟨maker, hmade⟩ := key_made h kv xs ha.lookup
    have hfmt := requestFmt_of_service hw hquery ha.identified.read
    refine ⟨maker, stored, response.wrapped, hmade, ⟨⟨serviceRequest, claims, ha.identified,
      hattested⟩, ?_, ha.lookup, ?_⟩, ?_⟩
    · rw [← hfmt]
      exact ha.fmt
    · rw [← hfmt]
      exact ha.wraps
    · rw [← hreceipt]
  · rintro ⟨maker, stored, wrapped, -, hfor, rfl⟩
    obtain ⟨serviceRequest, claims, hi, hattested⟩ := hfor.passes
    have hfmt := requestFmt_of_service hw hquery hi.read
    have hknown := hfor.known
    have hwraps := hfor.wraps
    rw [← hfmt] at hknown hwraps
    exact key_complete ⟨⟨hi, ⟨claims, hattested⟩, ⟨none, hselection hi.read⟩, hknown,
      hfor.lookup⟩, hwraps⟩

theorem sample_key_asked : ∃ maker, ∃ stored : StoredItem, ∃ wrapped,
    MadeIn governedHost .empty governedCalls maker sampleKid stored ∧
      KeyFor governedHost (sampleMoment 1000) (serviceAfter governedHost .empty governedCalls)
        (withParameters unwrapRequest) sampleKid "tink" stored wrapped := by
  have hanswered : (answered (key governedHost (sampleMoment 1000)
      (serviceAfter governedHost .empty governedCalls) (withParameters unwrapRequest))).isSome =
      true := by
    decide +kernel
  have hfmt : askedFmt askedParameters = "tink" := by decide +kernel
  obtain ⟨response, hresponse⟩ := Option.isSome_iff_exists.mp hanswered
  obtain ⟨maker, stored, wrapped, hmade, hfor, -⟩ := (key_asked_iff governedHost .empty
    governedCalls (sampleMoment 1000) (withParameters unwrapRequest) askedParameters sampleKid
    askedParameters_writable rfl (by decide +kernel) response).mp hresponse
  rw [hfmt] at hfor
  exact ⟨maker, stored, wrapped, hmade, hfor⟩

end DepaKms
