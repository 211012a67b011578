import DepaKms.Ledger
import DepaKms.ProposalLog

set_option autoImplicit false

/-!
# Phases of the replay bar

The bar compares a proposal with the creation times of the documents that are kept. One
kept document without a time lifts it for good, and one with a time of eight bytes ends
governance for good.
-/
namespace DepaKms

variable {h : Host}

/-- A time of eight bytes can only be sorted in where no other document has a time. -/
theorem sortTimes_set_iff {times : KvMap CreatedAt Bytes}
    (hall : ∀ t ∈ times.keys, ∃ x, t.toNumber h.toEngine = .ok x) {created : CreatedAt}
    (hcreated : ∃ x, created.compared h.toEngine = .ok x) (id : Bytes) :
    (∃ sorted, sortTimes h (times.set created id).keys = .ok sorted) ↔
      (created.isBigint = true → ∀ t ∈ times.keys, t = .undefined) := by
  have hmem (t : CreatedAt) : t ∈ (times.set created id).keys ↔ t = created ∨ t ∈ times.keys := by
    rw [← AList.mem_keys, KvMap.mem_set, AList.mem_keys]
  rw [sortTimes_ok_iff]
  cases hbig : created.isBigint with
  | false =>
    refine iff_of_true (fun _ t ht => ?_) (by simp)
    rcases (hmem t).mp ht with rfl | ht
    · obtain ⟨x, hx⟩ := hcreated
      exact ⟨x, CreatedAt.toNumber_ok_iff.mpr ⟨hbig, hx⟩⟩
    · exact hall t ht
  | true =>
    set compared := (times.set created id).keys.filter fun t => t ≠ .undefined with hcompared
    have hnodup : compared.Nodup := (AList.keys_nodup _).filter _
    have hnot : ¬ ∃ x, created.toNumber h.toEngine = .ok x := by
      rintro ⟨x, hx⟩
      rw [(CreatedAt.toNumber_ok_iff.mp hx).1] at hbig
      cases hbig
    have hdefined (t : CreatedAt) : t ∈ compared ↔
        (t = created ∨ t ∈ times.keys) ∧ t ≠ .undefined := by
      rw [hcompared, List.mem_filter, hmem, decide_eq_true_eq]
    have hself : created ≠ .undefined := by
      rintro rfl
      cases hbig
    constructor
    · intro hsorts _ t ht
      by_contra hne
      -- A second time is compared, and the one of eight bytes with it.
      have hother : created ≠ t := by
        rintro rfl
        exact hnot (hall created ht)
      have htwo : [created, t].Subperm compared := by
        refine List.subperm_of_subset (by simpa using hother) ?_
        intro t' ht'
        rcases List.mem_pair.mp ht' with rfl | rfl
        · exact (hdefined _).mpr ⟨.inl rfl, hself⟩
        · exact (hdefined _).mpr ⟨.inr ht, hne⟩
      exact hnot (hsorts htwo.length_le created ((hmem _).mpr (.inl rfl)))
    · intro hundefined hlength
      have hone : compared.Subperm [created] := by
        refine List.subperm_of_subset hnodup fun t ht => ?_
        obtain ⟨ht, hne⟩ := (hdefined t).mp ht
        rw [List.mem_singleton]
        exact ht.resolve_right fun ht => hne (hundefined rfl t ht)
      have hle := hone.length_le
      rw [List.length_singleton] at hle
      omega

/-- A kept document has this creation time. -/
def KeepsTime (h : Host) (kv : Kv) (created : CreatedAt) : Prop :=
  ∃ id document, kv.proposals.lookup id = some document ∧
    (createdAt h document).result = .ok created

/-- What the bar asks of a creation time. -/
structure PassesTime (h : Host) (kv : Kv) (created : CreatedAt) : Prop where
  comparable : ∀ n, ¬ KeepsTime h kv (.bigint n)
  recent : ∃ x, created.compared h.toEngine = .ok x ∧
    ((∃ kept, KeepsTime h kv kept ∧ kept.compared h.toEngine = .ok .nan) ∨
      ∀ kept, KeepsTime h kv kept → ∀ y, kept.compared h.toEngine = .ok y → x.lt y = false)
  sortable : created.isBigint = true → ∀ kept, KeepsTime h kv kept → kept = .undefined

/-- The times of all kept documents can be read and compared. -/
def TimesReadable (h : Host) (kv : Kv) : Prop :=
  ∀ id document, kv.proposals.lookup id = some document →
    ∃ created x, (createdAt h document).result = .ok created ∧
      created.compared h.toEngine = .ok x

variable {kv : Kv}

theorem createdTimes_result {entries : List (Bytes × Bytes)}
    (hall : ∀ e ∈ entries, ∃ created, (createdAt h e.2).result = .ok created)
    (times : KvMap CreatedAt Bytes) :
    ∃ times', (createdTimeToProposalIdMap h entries times).result = .ok times' := by
  induction entries generalizing times with
  | nil => exact ⟨times, rfl⟩
  | cons e entries ih =>
    obtain ⟨⟨created, hcreated⟩, hall⟩ := List.forall_mem_cons.mp hall
    unfold createdTimeToProposalIdMap
    rw [Logged.result_bind, hcreated]
    exact ih hall _

theorem keptTimes_of_readable (hr : TimesReadable h kv) :
    ∃ times, (createdTimeToProposalIdMap h (visited h kv) ∅).result = .ok times ∧
      KeptTimes h kv times := by
  have hall : ∀ e ∈ visited h kv, ∃ created, (createdAt h e.2).result = .ok created :=
    fun e he => by
      obtain ⟨created, x, hcreated, -⟩ := hr e.1 e.2 ((mem_visited kv e.1 e.2).mp he)
      exact ⟨created, hcreated⟩
  obtain ⟨times, htimes⟩ := createdTimes_result hall ∅
  exact ⟨times, htimes, keptTimes_ensures kv times htimes⟩

/-- What holds of the keys of the map holds of the times of the kept documents. -/
theorem KeptTimes.forall_iff {times : KvMap CreatedAt Bytes} (hk : KeptTimes h kv times)
    {P : CreatedAt → Prop} (hP : ∀ created id, P (created.heldBy id) ↔ P created) :
    (∀ t ∈ times.keys, P t) ↔ ∀ created, KeepsTime h kv created → P created := by
  constructor
  · rintro hall created ⟨id, document, hdocument, htime⟩
    obtain ⟨created', htime', hmem⟩ := hk.covers id document hdocument
    cases htime.symm.trans htime'
    exact (hP created id).mp (hall _ (AList.mem_keys.mp hmem))
  · intro hall t ht
    obtain ⟨id, hid⟩ := Option.isSome_iff_exists.mp (AList.lookup_isSome.mpr (AList.mem_keys.mpr ht))
    obtain ⟨document, created, hdocument, htime, rfl⟩ := hk.ids t id hid
    exact (hP created id).mpr (hall created ⟨id, document, hdocument, htime⟩)

theorem KeptTimes.exists_iff {times : KvMap CreatedAt Bytes} (hk : KeptTimes h kv times)
    {P : CreatedAt → Prop} (hP : ∀ created id, P (created.heldBy id) ↔ P created) :
    (∃ t ∈ times.keys, P t) ↔ ∃ created, KeepsTime h kv created ∧ P created := by
  have hnone := hk.forall_iff (P := fun t => ¬ P t) fun created id => not_congr (hP created id)
  rw [← not_iff_not]
  simpa using hnone

theorem KeptTimes.converts_iff {times : KvMap CreatedAt Bytes} (hk : KeptTimes h kv times)
    (hr : TimesReadable h kv) : (∀ t ∈ times.keys, ∃ x, t.toNumber h.toEngine = .ok x) ↔
      ∀ n, ¬ KeepsTime h kv (.bigint n) := by
  rw [hk.forall_iff fun created id => by rw [CreatedAt.toNumber_heldBy]]
  constructor
  · intro hall n hn
    obtain ⟨x, hx⟩ := hall _ hn
    cases hx
  · rintro hnone created ⟨id, document, hdocument, htime⟩
    obtain ⟨created', x, htime', hx⟩ := hr id document hdocument
    cases htime.symm.trans htime'
    refine ⟨x, CreatedAt.toNumber_ok_iff.mpr ⟨?_, hx⟩⟩
    cases created with
    | bigint n => exact absurd ⟨id, document, hdocument, htime⟩ (hnone n)
    | _ => rfl

/-- The bar, told by the times of the kept documents. -/
theorem KeptTimes.not_lt_iff {times : KvMap CreatedAt Bytes} (hk : KeptTimes h kv times)
    {last : Number} (hlast : mathMax h times.keys = .ok last) (x : Number) :
    x.lt last = false ↔
      (∃ kept, KeepsTime h kv kept ∧ kept.compared h.toEngine = .ok .nan) ∨
        ∀ kept, KeepsTime h kv kept → ∀ y, kept.compared h.toEngine = .ok y → x.lt y = false := by
  have hconverts := mathMax_ok_iff.mp ⟨last, hlast⟩
  have hsame (t : CreatedAt) (ht : t ∈ times.keys) (y : Number) :
      t.toNumber h.toEngine = .ok y ↔ t.compared h.toEngine = .ok y := by
    obtain ⟨z, hz⟩ := hconverts t ht
    rw [CreatedAt.toNumber_ok_iff, (CreatedAt.toNumber_ok_iff.mp hz).1]
    simp
  have hnan : (∃ t ∈ times.keys, t.toNumber h.toEngine = .ok .nan) ↔
      ∃ kept, KeepsTime h kv kept ∧ kept.compared h.toEngine = .ok .nan := by
    rw [← hk.exists_iff fun created id => by rw [CreatedAt.compared_heldBy]]
    exact exists_congr fun t => and_congr_right fun ht => hsame t ht _
  have hbelow : (∀ t ∈ times.keys, ∀ y, t.toNumber h.toEngine = .ok y → x.lt y = false) ↔
      ∀ kept, KeepsTime h kv kept → ∀ y, kept.compared h.toEngine = .ok y → x.lt y = false := by
    have hkept := hk.forall_iff (P := fun t => ∀ y, t.compared h.toEngine = .ok y → x.lt y = false)
      fun created id => by rw [CreatedAt.compared_heldBy]
    refine Iff.trans ?_ hkept
    exact forall₂_congr fun t ht => forall_congr' fun y => imp_congr_left (hsame t ht y)
  rw [not_lt_mathMax_iff hlast, hnan, hbelow]

theorem saveProposal_ok_iff {times : KvMap CreatedAt Bytes} {created : CreatedAt}
    {document : Bytes} {proposals : KvMap Bytes Bytes} :
    (∃ saved, saveProposal h times created document proposals = .ok saved) ↔
      ∃ sorted, sortTimes h (times.set created (h.sha256 document)).keys = .ok sorted := by
  unfold saveProposal
  dsimp only
  cases sortTimes h (times.set created (h.sha256 document)).keys with
  | error e => exact iff_of_false (by rintro ⟨_, hs⟩; cases hs) (by simp)
  | ok sorted => exact iff_of_true ⟨_, rfl⟩ ⟨sorted, rfl⟩

theorem admits_iff (hr : TimesReadable h kv) {document : Bytes} :
    (∃ proposals, Admits h kv document proposals) ↔
      ∃ created, (createdAt h document).result = .ok created ∧ PassesTime h kv created := by
  obtain ⟨times, htimes, hkept⟩ := keptTimes_of_readable hr
  have hundefined := hkept.forall_iff (P := fun t => t = .undefined)
    fun created id => CreatedAt.heldBy_eq_undefined_iff
  constructor
  · rintro ⟨proposals, times', created, last, htimes', hcreated, hlast, hbefore, hsave⟩
    cases htimes.symm.trans htimes'
    have hall := mathMax_ok_iff.mp ⟨last, hlast⟩
    obtain ⟨x, hx, hbar⟩ := createdBefore_eq_false_iff.mp hbefore
    have hsorted := (sortTimes_set_iff hall ⟨x, hx⟩ _).mp (saveProposal_ok_iff.mp ⟨proposals, hsave⟩)
    rw [hundefined] at hsorted
    exact ⟨created, hcreated, (hkept.converts_iff hr).mp hall,
      ⟨x, hx, (hkept.not_lt_iff hlast x).mp hbar⟩, hsorted⟩
  · rintro ⟨created, hcreated, hpasses⟩
    have hall := (hkept.converts_iff hr).mpr hpasses.comparable
    obtain ⟨last, hlast⟩ := mathMax_ok_iff.mpr hall
    obtain ⟨x, hx, hrecent⟩ := hpasses.recent
    have hbefore := createdBefore_eq_false_iff.mpr ⟨x, hx, (hkept.not_lt_iff hlast x).mpr hrecent⟩
    have hsortable := hpasses.sortable
    rw [← hundefined] at hsortable
    obtain ⟨proposals, hsave⟩ := saveProposal_ok_iff.mpr
      ((sortTimes_set_iff hall ⟨x, hx⟩ (h.sha256 document)).mpr hsortable)
    exact ⟨proposals, times, created, last, htimes, hcreated, hlast, hbefore, hsave⟩

/-- One kept document has a time of eight bytes. -/
def Stopped (h : Host) (kv : Kv) : Prop := ∃ n, KeepsTime h kv (.bigint n)

/-- One kept document has no time. -/
def Lifted (h : Host) (kv : Kv) : Prop := KeepsTime h kv .undefined

theorem Stopped.refuses (hs : Stopped h kv) {document : Bytes} {proposals : KvMap Bytes Bytes} :
    ¬ Admits h kv document proposals := by
  rintro ⟨times, created, last, htimes, -, hlast, -, -⟩
  obtain ⟨n, hn⟩ := hs
  have hkept : KeptTimes h kv times := keptTimes_ensures kv times htimes
  have hall := mathMax_ok_iff.mp ⟨last, hlast⟩
  rw [hkept.forall_iff fun created id => by rw [CreatedAt.toNumber_heldBy]] at hall
  obtain ⟨x, hx⟩ := hall _ hn
  cases hx

theorem KeepsTime.congr {kv' : Kv} (hsame : kv'.proposals = kv.proposals) {created : CreatedAt} :
    KeepsTime h kv' created ↔ KeepsTime h kv created := by
  unfold KeepsTime
  rw [hsame]

/-- The times to forget are taken from the front, and what has no time stands behind. -/
theorem defined_of_forgotten {times sorted : List CreatedAt} (hs : sortTimes h times = .ok sorted)
    (hnodup : times.Nodup) {t : CreatedAt}
    (ht : t ∈ sorted.take (sorted.length - proposalsToKeep)) : t ≠ .undefined := by
  obtain ⟨compared, hc, hs⟩ := Logged.bind_ok_iff.mp hs
  cases hs
  have hone : (times.filter fun t => t = .undefined).length ≤ 1 := by
    have hcount := List.nodup_iff_count_le_one.mp hnodup .undefined
    rw [List.count_eq_length_filter] at hcount
    exact hcount
  have hfront : (compared ++ times.filter fun t => t = .undefined).length - proposalsToKeep ≤
      compared.length := by
    rw [List.length_append]
    unfold proposalsToKeep
    omega
  rw [List.take_append_of_le_length hfront] at ht
  have hmem := (sortByTime_perm hc).mem_iff.mp (List.mem_of_mem_take ht)
  simpa using (List.mem_filter.mp hmem).2

/-- A document without a time is not forgotten. -/
theorem Admits.keeps_untimed {document : Bytes} {proposals : KvMap Bytes Bytes}
    (ha : Admits h kv document proposals) {id d : Bytes}
    (hd : kv.proposals.lookup id = some d) (htime : (createdAt h d).result = .ok .undefined)
    (hsame : id = h.sha256 document → d = document) : proposals.lookup id = some d := by
  obtain ⟨times, created, last, htimes, hcreated, -, -, hsave⟩ := ha
  have hkept : KeptTimes h kv times := keptTimes_ensures kv times htimes
  obtain ⟨sorted, hsorted, hsave⟩ := Logged.bind_ok_iff.mp hsave
  cases hsave
  rw [deleteProposals_keeps]
  · by_cases hid : id = h.sha256 document
    · rw [hid, AList.lookup_insert, hsame hid]
    · rw [AList.lookup_insert_ne hid, hd]
  · intro t ht hlookup
    have hdefined := defined_of_forgotten hsorted (AList.keys_nodup _) ht
    by_cases hnew : t = created
    · rw [hnew, KvMap.lookup_set, Option.some_inj] at hlookup
      rw [hsame hlookup.symm, hcreated] at htime
      exact hdefined (hnew.trans (Except.ok.inj htime))
    · rw [KvMap.lookup_set_ne _ hnew] at hlookup
      obtain ⟨d', created', hd', ht', he⟩ := hkept.ids t id hlookup
      cases hd.symm.trans hd'
      cases ht'.symm.trans htime
      exact hdefined he

theorem Enacts.admits {kv' : Kv} {request : Request} {actions : List ProposedAction}
    (he : Enacts h kv request actions kv') : Admits h kv request.body kv'.proposals := by
  obtain ⟨-, kv₁, proposals, -, hadmits, rfl⟩ := he
  exact hadmits

theorem timesReadable_of_service (h : Host) (kv : Kv) (xs : List Transaction) :
    TimesReadable h (serviceAfter h kv xs) := by
  refine run_keeps (P := fun _ _ => True) (R := TimesReadable h) ?_ (fun id d hl => by cases hl)
    (throughout_of_forall (fun _ _ _ => trivial) _)
  intro kv x kv' _ hr hs id d hl
  rcases serve_kept hs with ⟨-, hsame, -⟩ | ⟨-, logContext, actions, kv₁, -, henacts, rfl⟩
  · rw [hsame] at hl
    exact hr id d hl
  · obtain ⟨times, created, last, htimes, hcreated, hlast, hbefore, hsave⟩ := henacts.admits
    rcases henacts.admits.saved hl with ⟨-, rfl⟩ | hold
    · obtain ⟨x, hx, -⟩ := createdBefore_eq_false_iff.mp hbefore
      exact ⟨created, x, hcreated, hx⟩
    · exact hr id d hold

theorem keepsTime_of_service (h : Host) (kv : Kv) (xs : List Transaction) (id d : Bytes)
    (hl : (serviceAfter h kv xs).proposals.lookup id = some d) :
    KeepsTime h (serviceAfter h kv xs) (timeOf h d) := by
  obtain ⟨created, x, hcreated, -⟩ := timesReadable_of_service h kv xs id d hl
  rw [timeOf_eq hcreated]
  exact ⟨id, d, hl, hcreated⟩

/-- Who proposes may do so, and all the actions that are asked for apply. -/
def MayEnact (h : Host) (t : Moment) (kv : Kv) (request : Request) : Prop :=
  (∃ logContext, MayPropose h t kv request logContext) ∧ ∃ actions kv₁,
    requestActions h request = some actions ∧
      actions.foldlM (ProposedAction.enact h.toEngine) kv = some kv₁

theorem serve_post_iff (hr : TimesReadable h kv) {t : Moment} {request : Request} :
    (serve h kv ⟨.postProposals, t, request⟩).isSome = true ↔ MayEnact h t kv request ∧
      ∃ created, (createdAt h request.body).result = .ok created ∧ PassesTime h kv created := by
  rw [← admits_iff hr, Option.isSome_iff_exists, serve_post]
  simp only [post_eq_some_iff]
  constructor
  · rintro ⟨kv', logContext, actions, kv₁, hmay, ⟨hactions, kv₂, proposals, hkv₂, hadmits, -⟩, -⟩
    exact ⟨⟨⟨logContext, hmay⟩, actions, kv₂, hactions, hkv₂⟩, proposals, hadmits⟩
  · rintro ⟨⟨⟨logContext, hmay⟩, actions, kv₂, hactions, hkv₂⟩, proposals, hadmits⟩
    exact ⟨_, logContext, actions, _, hmay, ⟨hactions, kv₂, proposals, hkv₂, hadmits, rfl⟩, rfl⟩

/-- In every state of the service a proposal is accepted just when its caller may propose, its
    actions apply, and its time passes the times of the documents that are kept. -/
theorem proposal_accepted_iff (h : Host) (kv : Kv) (xs : List Transaction) (t : Moment)
    (request : Request) :
    (serve h (serviceAfter h kv xs) ⟨.postProposals, t, request⟩).isSome = true ↔
      MayEnact h t (serviceAfter h kv xs) request ∧
        ∃ created, (createdAt h request.body).result = .ok created ∧
          PassesTime h (serviceAfter h kv xs) created :=
  serve_post_iff (timesReadable_of_service h kv xs)

theorem stopped_step {kv' : Kv} {x : Transaction} (hstopped : Stopped h kv)
    (hs : serve h kv x = some kv') : x.operation ≠ .postProposals ∧
      kv'.proposals = kv.proposals ∧ ∀ m, kv'.policy m = kv.policy m := by
  rcases serve_kept hs with hkept | ⟨-, logContext, actions, kv₁, -, henacts, -⟩
  · exact hkept
  · exact absurd henacts.admits hstopped.refuses

theorem Stopped.congr {kv' : Kv} (hstopped : Stopped h kv)
    (hsame : kv'.proposals = kv.proposals) : Stopped h kv' := by
  obtain ⟨n, hn⟩ := hstopped
  exact ⟨n, (KeepsTime.congr hsame).mpr hn⟩

theorem stopped_run (hstopped : Stopped h kv) (later : List Transaction) :
    Stopped h (run (commit (serve h)) kv later) ∧
      ∀ m, (run (commit (serve h)) kv later).policy m = kv.policy m := by
  refine run_keeps (P := fun _ _ => True)
    (R := fun kv' => Stopped h kv' ∧ ∀ m, kv'.policy m = kv.policy m) ?_
    ⟨hstopped, fun _ => rfl⟩ (throughout_of_forall (fun _ _ _ => trivial) _)
  rintro kv₁ x kv₂ - ⟨hstopped, hsame⟩ hs
  obtain ⟨-, hproposals, hpolicy⟩ := stopped_step hstopped hs
  exact ⟨hstopped.congr hproposals, fun m => (hpolicy m).trans (hsame m)⟩

/-- Once a document with a time of eight bytes is kept, no proposal is ever accepted again, and
    the policies stay what they are. -/
theorem governance_stopped (h : Host) (kv : Kv) (xs later : List Transaction)
    (hstopped : Stopped h (serviceAfter h kv xs)) :
    (∀ x ∈ accepted (serve h) (serviceAfter h kv xs) later, x.operation ≠ .postProposals) ∧
      ∀ m, (serviceAfter h kv (xs ++ later)).policy m = (serviceAfter h kv xs).policy m := by
  rw [serviceAfter_append]
  refine ⟨fun x hx => ?_, (stopped_run hstopped later).2⟩
  obtain ⟨before, after, kv', -, hs⟩ := mem_accepted _ hx
  exact (stopped_step (stopped_run hstopped before).1 hs).1

/-- The header of a signed document with this creation time, encoded in eight bytes. -/
def longDocument (created : UInt8) : Bytes :=
  [0xd2, 0x84, 0x58, 0x21, 0xa1, 0x76] ++ strToBuf "ccf.gov.msg.created_at" ++
    [0x1b, 0, 0, 0, 0, 0, 0, 0, created, 0xa0, 0x58, UInt8.ofNat sampleContentBytes.length] ++
    sampleContentBytes ++ [0x41, 0]

def propose (document : Bytes) : Transaction :=
  ⟨.postProposals, sampleMoment 0, { (samplePost 1).request with body := document }⟩

theorem sample_governance_stopped :
    (∀ x ∈ accepted (serve sampleHost) (serviceAfter sampleHost .empty [propose (longDocument 1)])
        [propose (sampleDocument 2)], x.operation ≠ .postProposals) ∧
      ∀ m, (serviceAfter sampleHost .empty
        ([propose (longDocument 1)] ++ [propose (sampleDocument 2)])).policy m =
          (serviceAfter sampleHost .empty [propose (longDocument 1)]).policy m := by
  have hlong : timeOf sampleHost (longDocument 1) = .bigint 1 := by decide +kernel
  have hkept := keepsTime_of_service sampleHost .empty [propose (longDocument 1)]
    (sampleDigest (longDocument 1)) (longDocument 1) (by decide +kernel)
  rw [hlong] at hkept
  exact governance_stopped sampleHost .empty _ _ ⟨1, hkept⟩

def documentsSent (xs : List Transaction) : Set Bytes := {d | ∃ x ∈ xs, x.request.body = d}

/-- What is kept was sent, and is kept under its hash. -/
theorem documents_of_service (h : Host) (kv : Kv) (xs : List Transaction) {id d : Bytes}
    (hl : (serviceAfter h kv xs).proposals.lookup id = some d) :
    id = h.sha256 d ∧ d ∈ documentsSent xs := by
  obtain ⟨l, hrecords, hr, -⟩ := represents_service h kv xs
  obtain ⟨hid, hd⟩ := hr.documents hl
  refine ⟨hid, ?_⟩
  obtain ⟨entry, hentry, hmem⟩ := List.mem_flatMap.mp hd
  cases entry with
  | key kid stored => cases hmem
  | proposal document actions =>
    cases List.mem_singleton.mp hmem
    obtain ⟨x, hx, -, hbody, -⟩ := exists_of_forall₂ hrecords hentry
    obtain ⟨before, after, kv', rfl, -⟩ := mem_accepted _ (List.mem_of_mem_filter hx)
    exact ⟨x, by simp, hbody.symm⟩

theorem lifted_step {xs : List Transaction} {x : Transaction}
    (hinj : Set.InjOn h.sha256 (documentsSent (xs ++ [x])))
    (hlifted : Lifted h (serviceAfter h kv xs)) : Lifted h (serviceAfter h kv (xs ++ [x])) := by
  rw [serviceAfter_append, run_cons, run_nil, commit]
  cases hs : serve h (serviceAfter h kv xs) x with
  | none => exact hlifted
  | some kv' =>
    rcases serve_kept hs with ⟨-, hsame, -⟩ | ⟨-, logContext, actions, kv₁, -, henacts, rfl⟩
    · exact (KeepsTime.congr hsame).mpr hlifted
    · obtain ⟨id, d, hd, htime⟩ := hlifted
      obtain ⟨hid, y, hy, hbody⟩ := documents_of_service h kv xs hd
      refine ⟨id, d, henacts.admits.keeps_untimed hd htime fun hsame => ?_, htime⟩
      exact hinj ⟨y, List.mem_append_left _ hy, hbody⟩ ⟨x, by simp, rfl⟩ (hid.symm.trans hsame)

theorem lifted_run {xs : List Transaction} (later : List Transaction)
    (hinj : Set.InjOn h.sha256 (documentsSent (xs ++ later)))
    (hlifted : Lifted h (serviceAfter h kv xs)) : Lifted h (serviceAfter h kv (xs ++ later)) := by
  induction later generalizing xs with
  | nil => simpa using hlifted
  | cons x later ih =>
    rw [List.append_cons] at hinj ⊢
    refine ih hinj (lifted_step (hinj.mono ?_) hlifted)
    rintro d ⟨y, hy, hbody⟩
    exact ⟨y, List.mem_append_left _ hy, hbody⟩

/-- Once a document without a time is kept, a proposal is never again measured against those
    accepted before it, so that any of them can be replayed. -/
theorem bar_lifted_for_good (h : Host) (kv : Kv) (xs later : List Transaction)
    (hinj : Set.InjOn h.sha256 (documentsSent (xs ++ later)))
    (hlifted : Lifted h (serviceAfter h kv xs)) (t : Moment) (request : Request) :
    (serve h (serviceAfter h kv (xs ++ later)) ⟨.postProposals, t, request⟩).isSome = true ↔
      MayEnact h t (serviceAfter h kv (xs ++ later)) request ∧
        ¬ Stopped h (serviceAfter h kv (xs ++ later)) ∧
        ∃ created x, (createdAt h request.body).result = .ok created ∧
          created.compared h.toEngine = .ok x ∧ (created.isBigint = true →
            ∀ kept, KeepsTime h (serviceAfter h kv (xs ++ later)) kept → kept = .undefined) := by
  rw [serve_post_iff (timesReadable_of_service h kv _)]
  have hlater := lifted_run later hinj hlifted
  constructor
  · rintro ⟨hmay, created, hcreated, hpasses⟩
    obtain ⟨x, hx, -⟩ := hpasses.recent
    exact ⟨hmay, not_exists.mpr hpasses.comparable, created, x, hcreated, hx, hpasses.sortable⟩
  · rintro ⟨hmay, hgoing, created, x, hcreated, hx, hsortable⟩
    exact ⟨hmay, created, hcreated, not_exists.mp hgoing,
      ⟨x, hx, .inl ⟨.undefined, hlater, rfl⟩⟩, hsortable⟩

/-- A signed document whose header is empty. -/
def untimedDocument : Bytes :=
  [0xd2, 0x84, 0x41, 0xa0, 0xa0, 0x58, UInt8.ofNat sampleContentBytes.length] ++
    sampleContentBytes ++ [0x41, 0]

/-- A document of time one is refused after one of time two, and accepted where a document
    without a time came before both. -/
theorem sample_bar_lifted :
    (serve sampleHost (serviceAfter sampleHost .empty [propose (sampleDocument 2)])
      (propose (sampleDocument 1))).isSome = false ∧
    (serve sampleHost (serviceAfter sampleHost .empty
        ([propose untimedDocument] ++ [propose (sampleDocument 2)]))
      (propose (sampleDocument 1))).isSome = true ∧
    ¬ Stopped sampleHost (serviceAfter sampleHost .empty
      ([propose untimedDocument] ++ [propose (sampleDocument 2)])) := by
  have huntimed : timeOf sampleHost untimedDocument = .undefined := by decide +kernel
  have hkept := keepsTime_of_service sampleHost .empty [propose untimedDocument]
    (sampleDigest untimedDocument) untimedDocument (by decide +kernel)
  rw [huntimed] at hkept
  have hdistinct : sampleHost.sha256 untimedDocument ≠ sampleHost.sha256 (sampleDocument 2) := by
    decide +kernel
  have hinj : Set.InjOn sampleHost.sha256
      (documentsSent ([propose untimedDocument] ++ [propose (sampleDocument 2)])) := by
    rintro _ ⟨x, hx, rfl⟩ _ ⟨y, hy, rfl⟩ he
    simp only [List.cons_append, List.nil_append, List.mem_cons, List.not_mem_nil, or_false] at hx hy
    rcases hx with rfl | rfl <;> rcases hy with rfl | rfl
    · rfl
    · exact absurd he hdistinct
    · exact absurd he.symm hdistinct
    · rfl
  have hserved : (serve sampleHost (serviceAfter sampleHost .empty
      ([propose untimedDocument] ++ [propose (sampleDocument 2)]))
      (propose (sampleDocument 1))).isSome = true := by
    decide +kernel
  exact ⟨by decide +kernel, hserved,
    ((bar_lifted_for_good sampleHost .empty _ _ hinj hkept _ _).mp hserved).2.1⟩

end DepaKms
