import DepaKms.OfferOrder
import DepaKms.AskedKeys

set_option autoImplicit false

/-!
# What the service offers

The key on offer in a running service. Its number follows from the accepted refreshes and
the grace period in force, and goes back only when a proposal lengthens that period.
-/
namespace DepaKms

variable {h : Host} {t t' : Moment} {kv : Kv} {xs later : List Transaction}

/-- The accepted refreshes, in their order. -/
def refreshes (h : Host) (kv : Kv) (xs : List Transaction) : List Transaction :=
  (accepted (serve h) kv.deployed xs).filter Transaction.isRefresh

def madeTimes (h : Host) (kv : Kv) (xs : List Transaction) : List ℚ :=
  (refreshes h kv xs).map fun x => x.moment.now

theorem madeTimes_prefix (h : Host) (kv : Kv) (xs later : List Transaction) :
    madeTimes h kv xs <+: madeTimes h kv (xs ++ later) := by
  unfold madeTimes refreshes
  rw [accepted_append, List.filter_append, List.map_append]
  exact List.prefix_append _ _

theorem madeAt_of_makes {as : List Transaction} {log : List (String × StoredItem)}
    (hm : List.Forall₂ (Makes h) as log) : MadeAt log (as.map fun x => x.moment.now) := by
  unfold MadeAt
  induction hm with
  | nil => rfl
  | cons hmakes _ ih => simp only [List.map_cons, hmakes.timestamp, ih]

/-- The keys of the service are those of the accepted refreshes. -/
theorem keys_of_service (h : Host) (kv : Kv) (xs : List Transaction) :
    ∃ log, KeyLog (serviceAfter h kv xs) log ∧ List.Forall₂ (Makes h) (refreshes h kv xs) log := by
  obtain ⟨l, hrecords, hr, -⟩ := represents_service h kv xs
  exact ⟨l.keys, hr.keys, recorded_keys hrecords⟩

/-- The clock of the refreshes never goes back, nor from the last of them to now. -/
structure InOrder (times : List ℚ) (now : ℚ) : Prop where
  ordered : times.Pairwise (· ≤ ·)
  past : ∀ τ ∈ times, τ ≤ now

/-- The grace period of the rotation policy in force, zero without one. -/
def graceInForce (edits : List JsValue) : ℚ := ((rotationInForce edits).map Prod.snd).getD 0

theorem gracePeriod_of_governs {periods : Option (ℚ × ℚ)} (hp : Governs kv periods) :
    GracePeriod h kv ((periods.map Prod.snd).getD 0) := by
  cases periods with
  | none =>
    refine ⟨none, .json (.num 0), ?_, rfl, rfl⟩
    unfold KeyRotationPolicy.storedPolicy
    rw [hp]
  | some periods => exact Rotates.gracePeriod hp

theorem gracePeriod_of_service (h : Host) (kv : Kv) (xs : List Transaction) :
    GracePeriod h (serviceAfter h kv xs) (graceInForce (acceptedEdits h kv xs .keyRotation)) :=
  gracePeriod_of_governs (rotation_of_service h kv xs)

/-- Neither of the public endpoints answers with a key, unless one is asked for by its kid. -/
structure OffersNothing (h : Host) (t : Moment) (kv : Kv) : Prop where
  listed : ∀ request, answered (listpubkeys h t kv request) = none
  served : ∀ request, WithoutKid h request → answered (pubkey h t kv request) = none

theorem offersNothing_of_empty
    (hempty : ∀ logContext, (offeredKey h t kv logContext).result = .ok (0, none)) :
    OffersNothing h t kv := by
  have hnot (kid : String) : ¬ Offers h t kv kid := by
    rintro ⟨logContext, id, hoffered⟩
    rw [hempty] at hoffered
    cases hoffered
  constructor
  · refine fun request => Option.eq_none_iff_forall_ne_some.mpr fun keySet hr => ?_
    obtain ⟨kid, stored, hoffers, -⟩ := of_answered (listpubkeys_ensures request) hr
    exact hnot kid hoffers
  · refine fun request hw => Option.eq_none_iff_forall_ne_some.mpr fun response hr => ?_
    obtain ⟨kid, stored, hoffers, -⟩ := pubkey_offered hw hr
    exact hnot kid hoffers

/-- The key of this number, and the accepted refresh that made it. -/
structure KeyOfRefresh (h : Host) (kv : Kv) (xs : List Transaction) (n : ℕ) (x : Transaction)
    (kid : String) (stored : StoredItem) : Prop where
  id : (serviceAfter h kv xs).hpkeKeyIds.lookup n = some kid
  item : (serviceAfter h kv xs).hpkeKeys.lookup kid = some stored
  refresh : ∃ i, n = i + 1 ∧ (refreshes h kv xs)[i]? = some x
  made : MadeIn h kv xs x kid stored

/-- The number of the key on offer, which the times of the accepted refreshes and the grace period
    in force determine. -/
def offerNumber (h : Host) (kv : Kv) (xs : List Transaction) (now : ℚ) : ℕ :=
  onOffer (graceInForce (acceptedEdits h kv xs .keyRotation)) now (madeTimes h kv xs)

theorem offered_by_service (ho : InOrder (madeTimes h kv xs) t.now) :
    (refreshes h kv xs = [] ∧ ∀ logContext,
        (offeredKey h t (serviceAfter h kv xs) logContext).result = .ok (0, none)) ∨
      ∃ x kid stored, KeyOfRefresh h kv xs (offerNumber h kv xs t.now) x kid stored ∧
        ∀ logContext, (offeredKey h t (serviceAfter h kv xs) logContext).result =
          .ok (offerNumber h kv xs t.now, some kid) := by
  obtain ⟨log, hlog, hmakes⟩ := keys_of_service h kv xs
  by_cases hnil : refreshes h kv xs = []
  · rw [hnil] at hmakes
    cases hmakes
    exact .inl ⟨hnil, offeredKey_empty hlog⟩
  · have hne : madeTimes h kv xs ≠ [] := fun hempty => hnil (List.map_eq_nil_iff.mp hempty)
    obtain ⟨i, kid, stored, hnumber, hi, hselected⟩ := offeredKey_number hlog
      (madeAt_of_makes hmakes) (gracePeriod_of_service h kv xs) ho.ordered ho.past hne
    obtain ⟨hlt, hget⟩ := List.getElem?_eq_some_iff.mp hi
    have hlength := hmakes.length_eq
    have hlt' : i < (refreshes h kv xs).length := by omega
    have hmade : Makes h (refreshes h kv xs)[i] (kid, stored) := by
      rw [← hget]
      exact hmakes.get hlt' hlt
    obtain ⟨haccepted, hrefresh⟩ := List.mem_filter.mp (List.getElem_mem hlt')
    change i + 1 = offerNumber h kv xs t.now at hnumber
    rw [← hnumber]
    exact .inr ⟨(refreshes h kv xs)[i], kid, stored,
      ⟨hlog.indexed.lookup_iff.mpr ⟨i, stored, rfl, hi⟩, hlog.lookup_entry hi,
        ⟨i, rfl, List.getElem?_eq_getElem hlt'⟩,
        ⟨haccepted, hmade, hlog.lookup_entry hi⟩⟩, hselected⟩

/-- The public endpoints offer the key of one of the accepted refreshes, or nothing where there is
    none. -/
theorem service_offers (h : Host) (kv : Kv) (xs : List Transaction) (t : Moment)
    (ho : InOrder (madeTimes h kv xs) t.now) :
    (refreshes h kv xs = [] ∧ OffersNothing h t (serviceAfter h kv xs)) ∨
      ∃ x kid stored, KeyOfRefresh h kv xs (offerNumber h kv xs t.now) x kid stored ∧
        OffersExactly h t (serviceAfter h kv xs) (offerNumber h kv xs t.now) kid stored := by
  rcases offered_by_service ho with ⟨hnil, hempty⟩ | ⟨x, kid, stored, hkey, hselected⟩
  · exact .inl ⟨hnil, offersNothing_of_empty hempty⟩
  · exact .inr ⟨x, kid, stored, hkey, offersExactly_of_selected hselected hkey.item⟩

theorem sample_made_times : madeTimes governedHost .empty governedCalls = [0] := by
  decide +kernel

theorem sample_service_offers : ∃ n x kid stored,
    KeyOfRefresh governedHost .empty governedCalls n x kid stored ∧
      OffersExactly governedHost (sampleMoment 1000)
        (serviceAfter governedHost .empty governedCalls) n kid stored := by
  rcases service_offers governedHost .empty governedCalls (sampleMoment 1000)
      (by rw [sample_made_times]; constructor <;> norm_num [sampleMoment]) with
    ⟨hnil, -⟩ | ⟨x, kid, stored, hkey, hoffers⟩
  · have htimes := sample_made_times
    unfold madeTimes at htimes
    rw [hnil] at htimes
    cases htimes
  · exact ⟨_, x, kid, stored, hkey, hoffers⟩

/-- Where the parameters do not name a kid, `pubkey` answers just when the caller is authenticated
    and the key on offer has a receipt, and then with its public part. -/
theorem pubkey_unasked_iff (h : Host) (kv : Kv) (xs : List Transaction) (t : Moment)
    (request : Request) (params : List (String × String))
    (ho : InOrder (madeTimes h kv xs) t.now) (hw : ∀ p ∈ params, Writable p)
    (hquery : request.query = writeQuery params)
    (hkid : (asked params "kid").filter (fun s => s ≠ "") = none) (response : PublicKeyResponse) :
    answered (pubkey h t (serviceAfter h kv xs) request) = some response ↔
      (∃ serviceRequest, Identified h t (serviceAfter h kv xs) "pubkey" request serviceRequest) ∧
      ∃ x kid stored receipt, KeyOfRefresh h kv xs (offerNumber h kv xs t.now) x kid stored ∧
        receiptOf t kid stored = some receipt ∧
        PublicKeyIn h stored.item receipt (askedFmt params) response := by
  have hnone {serviceRequest : ServiceRequest}
      (hread : ReadAs h t (serviceAfter h kv xs) "pubkey" request serviceRequest) :
      (queryGet serviceRequest.query "kid").filter (fun s => s ≠ "") = none := by
    rw [asked_of_service hw hquery hread]
    exact hkid
  rw [pubkey_iff]
  rcases offered_by_service ho with ⟨hnil, hempty⟩ | ⟨x, kid, stored, hkey, hoffered⟩
  · constructor
    · rintro ⟨serviceRequest, hi, hanswered⟩
      rw [pubkeyServe_selected (pubkeySelection_unasked (hnone hi.read) (hempty _))] at hanswered
      cases hanswered
    · rintro ⟨-, x, kid, stored, receipt, hkey, -⟩
      obtain ⟨i, -, hx⟩ := hkey.refresh
      rw [hnil] at hx
      cases hx
  · constructor
    · rintro ⟨serviceRequest, hi, hanswered⟩
      rw [pubkeyServe_selected (pubkeySelection_unasked (hnone hi.read) (hoffered _)),
        pubkeyBody_iff, requestFmt_of_service hw hquery hi.read] at hanswered
      obtain ⟨stored', receipt, hlookup, hreceipt, hpublic⟩ := hanswered
      cases hkey.item.symm.trans hlookup
      exact ⟨⟨serviceRequest, hi⟩, x, kid, stored, receipt, hkey, hreceipt, hpublic⟩
    · rintro ⟨⟨serviceRequest, hi⟩, x', kid', stored', receipt, hkey', hreceipt, hpublic⟩
      cases hkey.id.symm.trans hkey'.id
      cases hkey.item.symm.trans hkey'.item
      refine ⟨serviceRequest, hi, ?_⟩
      rw [pubkeyServe_selected (pubkeySelection_unasked (hnone hi.read) (hoffered _)),
        pubkeyBody_iff, requestFmt_of_service hw hquery hi.read]
      exact ⟨stored, receipt, hkey.item, hreceipt, hpublic⟩

def tinkRequest : Request :=
  { requestOf (.obj []) none with query := writeQuery [("fmt", "tink")] }

theorem sample_pubkey_unasked : ∃ n x kid, ∃ stored : StoredItem, ∃ receipt response,
    KeyOfRefresh governedHost .empty governedCalls n x kid stored ∧
      PublicKeyIn governedHost stored.item receipt "tink" response := by
  have hanswered : (answered (pubkey governedHost (sampleMoment 1000)
      (serviceAfter governedHost .empty governedCalls) tinkRequest)).isSome = true := by
    decide +kernel
  have hwritable : ∀ p ∈ [("fmt", "tink")], Writable p := by
    rintro p hp
    cases List.mem_singleton.mp hp
    exact ⟨by decide, by decide, by decide⟩
  have hfmt : askedFmt [("fmt", "tink")] = "tink" := by decide +kernel
  obtain ⟨response, hresponse⟩ := Option.isSome_iff_exists.mp hanswered
  obtain ⟨-, x, kid, stored, receipt, hkey, -, hpublic⟩ := (pubkey_unasked_iff governedHost .empty
    governedCalls (sampleMoment 1000) tinkRequest [("fmt", "tink")]
    (by rw [sample_made_times]; constructor <;> norm_num [sampleMoment]) hwritable rfl
    (by decide +kernel) response).mp hresponse
  rw [hfmt] at hpublic
  exact ⟨_, x, kid, stored, receipt, response, hkey, hpublic⟩

theorem agedCount_anti {G G' now : ℚ} {times : List ℚ} (hG : G' ≤ G) :
    agedCount G now times ≤ agedCount G' now times := by
  refine List.countP_mono_left fun τ _ hτ => ?_
  rw [decide_eq_true_eq] at hτ ⊢
  linarith

theorem onOffer_advances {G G' now now' : ℚ} {times later : List ℚ} (hfront : times <+: later)
    (hnow : now ≤ now') (hG : G' ≤ G) (haged : ∃ τ ∈ times, τ + G * 1000 ≤ now) :
    onOffer G now times ≤ onOffer G' now' later := by
  obtain ⟨τ, hτ, hold⟩ := haged
  have hpos : 0 < agedCount G now times :=
    List.countP_pos_iff.mpr ⟨τ, hτ, decide_eq_true hold⟩
  have hle : agedCount G now times ≤ agedCount G' now' later :=
    (agedCount_anti hG).trans (agedCount_mono hfront hnow)
  unfold onOffer
  rw [if_neg hpos.ne', if_neg (hpos.trans_le hle).ne']
  exact hle

theorem number_of_offers {n : ℕ} {kid : String} {stored : StoredItem}
    (ho : InOrder (madeTimes h kv xs) t.now)
    (hoffers : OffersExactly h t (serviceAfter h kv xs) n kid stored) :
    n = offerNumber h kv xs t.now := by
  have hselected := hoffers.selected LogContext.new
  rcases offered_by_service ho with ⟨-, hempty⟩ | ⟨x, kid', stored', -, hfound⟩
  · rw [hempty] at hselected
    cases hselected
  · rw [hfound] at hselected
    cases hselected
    rfl

/-- Once some key is as old as the grace period asks for, the number on offer never goes back,
    whatever is called in between, unless the grace period in force has become longer. -/
theorem offer_advances (h : Host) (kv : Kv) (xs later : List Transaction) (t t' : Moment)
    (hnow : t.now ≤ t'.now) (hpast : ∀ τ ∈ madeTimes h kv xs, τ ≤ t.now)
    (ho : InOrder (madeTimes h kv (xs ++ later)) t'.now)
    (haged : ∃ τ ∈ madeTimes h kv xs,
      τ + graceInForce (acceptedEdits h kv xs .keyRotation) * 1000 ≤ t.now)
    (hgrace : graceInForce (acceptedEdits h kv (xs ++ later) .keyRotation) ≤
      graceInForce (acceptedEdits h kv xs .keyRotation))
    (n n' : ℕ) (kid kid' : String) (stored stored' : StoredItem)
    (hn : OffersExactly h t (serviceAfter h kv xs) n kid stored)
    (hn' : OffersExactly h t' (serviceAfter h kv (xs ++ later)) n' kid' stored') : n ≤ n' := by
  have hfront := madeTimes_prefix h kv xs later
  rw [number_of_offers ⟨ho.ordered.sublist hfront.sublist, hpast⟩ hn, number_of_offers ho hn']
  exact onOffer_advances hfront hnow hgrace haged

theorem sample_offer {xs : List Transaction} {times : List ℚ} {t : Moment}
    (htimes : madeTimes governedHost .empty xs = times) (ho : InOrder times t.now)
    (hne : times ≠ []) :
    ∃ n kid stored, OffersExactly governedHost t (serviceAfter governedHost .empty xs) n kid
      stored := by
  subst htimes
  rcases offered_by_service ho with ⟨hnil, -⟩ | ⟨x, kid, stored, hkey, hselected⟩
  · exact absurd (List.map_eq_nil_iff.mpr hnil) hne
  · exact ⟨_, kid, stored, offersExactly_of_selected hselected hkey.item⟩

/-- The first key is old enough at six seconds. A second one is made then, and asked for later. -/
theorem sample_offer_advances : ∃ n n' kid kid' stored stored',
    OffersExactly governedHost (sampleMoment 6000) (serviceAfter governedHost .empty governedCalls)
      n kid stored ∧
    OffersExactly governedHost (sampleMoment 12000)
      (serviceAfter governedHost .empty (governedCalls ++ laterCalls)) n' kid' stored' ∧
    n ≤ n' := by
  have htimes : madeTimes governedHost .empty (governedCalls ++ laterCalls) = [0, 6000] := by
    decide +kernel
  have hedits : graceInForce (acceptedEdits governedHost .empty governedCalls .keyRotation) = 5 ∧
      graceInForce (acceptedEdits governedHost .empty (governedCalls ++ laterCalls)
        .keyRotation) = 5 := by
    decide +kernel
  have hfirst : InOrder [0] (sampleMoment 6000).now := by
    constructor <;> norm_num [sampleMoment]
  have hsecond : InOrder [0, 6000] (sampleMoment 12000).now := by
    constructor <;> norm_num [sampleMoment]
  obtain ⟨n, kid, stored, hn⟩ := sample_offer sample_made_times hfirst (by simp)
  obtain ⟨n', kid', stored', hn'⟩ := sample_offer htimes hsecond (by simp)
  refine ⟨n, n', kid, kid', stored, stored', hn, hn', ?_⟩
  refine offer_advances governedHost .empty governedCalls laterCalls (sampleMoment 6000)
    (sampleMoment 12000) (by norm_num [sampleMoment]) ?_ (by rw [htimes]; exact hsecond) ?_
    (by rw [hedits.1, hedits.2]) n n' kid kid' stored stored' hn hn'
  · rw [sample_made_times]
    exact hfirst.past
  · rw [sample_made_times, hedits.1]
    exact ⟨0, List.mem_singleton_self 0, by norm_num [sampleMoment]⟩

end DepaKms
