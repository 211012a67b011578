import DepaKms.Proposals
import DepaKms.Runs
import DepaKms.SampleHost

set_option autoImplicit false

/-!
# Replayed proposals

The bar against replays is the greatest creation time among the documents that are
still kept. It only rises, since the newest document is never among those forgotten.
-/
namespace DepaKms

variable {h : Host}

theorem number_of_time {t : CreatedAt} {k : ℚ} (hk : t.time = some k)
    (hbig : t.isBigint = false) : t = .number (.finite k) := by
  cases t with
  | number x =>
    cases x with
    | finite q =>
      cases hk
      rfl
    | _ => cases hk
  | bigint n => cases hbig
  | _ => cases hk

theorem not_before_any {times : List CreatedAt} {last : Number} (hm : mathMax h times = .ok last)
    (hall : ∀ t ∈ times, ∃ k, t.time = some k) {created : CreatedAt} {n : ℚ}
    (hn : created.time = some n) (hbar : createdBefore h created last = .ok false) :
    ∀ t ∈ times, ∃ k, t = .number (.finite k) ∧ k ≤ n := by
  have hnumber (t : CreatedAt) (ht : t ∈ times) :
      ∃ k, t = .number (.finite k) ∧ t.toNumber h.toEngine = .ok (.finite k) := by
    obtain ⟨x, hx⟩ := mathMax_ok_iff.mp ⟨last, hm⟩ t ht
    obtain ⟨k, hk⟩ := hall t ht
    have hk := number_of_time hk (CreatedAt.toNumber_ok_iff.mp hx).1
    rw [hk]
    exact ⟨k, rfl, rfl⟩
  have hlast : (Number.finite n).lt last = false := by
    unfold createdBefore at hbar
    rw [CreatedAt.compared_of_time hn] at hbar
    exact Except.ok.inj hbar
  rcases (not_lt_mathMax_iff hm _).mp hlast with ⟨t, ht, hnan⟩ | hbelow
  · obtain ⟨k, -, hk⟩ := hnumber t ht
    cases hk.symm.trans hnan
  · intro t ht
    obtain ⟨k, htk, hk⟩ := hnumber t ht
    have hle := hbelow t ht _ hk
    rw [Number.lt_finite, decide_eq_false_iff_not, not_lt] at hle
    exact ⟨k, htk, hle⟩

theorem sortTimes_spec {times sorted : List CreatedAt} (hs : sortTimes h times = .ok sorted)
    (hall : ∀ t ∈ times, ∃ k, t.time = some k) :
    sorted.Perm times ∧ sorted.Pairwise (fun a b => a.time.getD 0 ≤ b.time.getD 0) ∧
      (2 ≤ times.length → ∀ t ∈ times, t.isBigint = false) := by
  have hdefined : times.filter (fun t => t ≠ .undefined) = times := by
    refine List.filter_eq_self.mpr fun t ht => ?_
    obtain ⟨k, hk⟩ := hall t ht
    have hne : t ≠ .undefined := by
      rintro rfl
      cases hk
    simpa using hne
  have hnone : times.filter (fun t => t = .undefined) = [] := by
    refine List.filter_eq_nil_iff.mpr fun t ht => ?_
    obtain ⟨k, hk⟩ := hall t ht
    have hne : t ≠ .undefined := by
      rintro rfl
      cases hk
    simpa using hne
  refine ⟨sortTimes_perm hs, ?_, fun hlength t ht => ?_⟩
  · obtain ⟨compared, hc, hs⟩ := Logged.bind_ok_iff.mp hs
    cases hs
    rw [hdefined] at hc
    rw [hnone, List.append_nil]
    exact sortByTime_ordered hc hall
  · obtain ⟨x, hx⟩ := sortTimes_ok_iff.mp ⟨sorted, hs⟩ (by rwa [hdefined]) t ht
    exact (CreatedAt.toNumber_ok_iff.mp hx).1

theorem newest_not_taken {sorted : List CreatedAt} {created : CreatedAt} {k : ℕ}
    (horder : sorted.Pairwise fun a b => a.time.getD 0 ≤ b.time.getD 0)
    (hnodup : sorted.Nodup) (hnumber : ∀ t ∈ sorted, ∃ n, t = .number (.finite n))
    (hmax : ∀ t ∈ sorted, t.time.getD 0 ≤ created.time.getD 0) (hk : k < sorted.length) :
    created ∉ sorted.take k := by
  intro hmem
  have hlater : sorted[k] ∈ sorted.drop k := by
    rw [List.drop_eq_getElem_cons hk]
    exact List.mem_cons_self
  have hle : created.time.getD 0 ≤ sorted[k].time.getD 0 := by
    rw [← List.take_append_drop k sorted, List.pairwise_append] at horder
    exact horder.2.2 _ hmem _ hlater
  have hge := hmax sorted[k] (List.getElem_mem hk)
  obtain ⟨m, hm⟩ := hnumber sorted[k] (List.getElem_mem hk)
  obtain ⟨n, hn⟩ := hnumber created (List.mem_of_mem_take hmem)
  have hsame : created = sorted[k] := by
    rw [hm, hn] at hle hge ⊢
    simp only [CreatedAt.time, Option.getD_some] at hle hge
    rw [le_antisymm hle hge]
  rw [← hsame] at hlater
  exact List.disjoint_take_drop hnodup le_rfl hmem hlater

theorem deleteProposals_subset {times : KvMap CreatedAt Bytes} {proposals : KvMap Bytes Bytes}
    {forgotten : List CreatedAt} {id document : Bytes}
    (hl : (deleteProposals times proposals forgotten).lookup id = some document) :
    proposals.lookup id = some document := by
  induction forgotten generalizing proposals with
  | nil => exact hl
  | cons created forgotten ih =>
    unfold deleteProposals at hl
    split at hl
    · have herase := ih hl
      rename_i proposalId hid
      by_cases he : id = proposalId
      · rw [he, AList.lookup_erase] at herase
        cases herase
      · rwa [AList.lookup_erase_ne he] at herase
    · exact ih hl

theorem deleteProposals_keeps {times : KvMap CreatedAt Bytes} {proposals : KvMap Bytes Bytes}
    {forgotten : List CreatedAt} {id : Bytes}
    (hkept : ∀ created ∈ forgotten, times.lookup created ≠ some id) :
    (deleteProposals times proposals forgotten).lookup id = proposals.lookup id := by
  induction forgotten generalizing proposals with
  | nil => rfl
  | cons created forgotten ih =>
    have hrest := fun created' hc => hkept created' (List.mem_cons_of_mem _ hc)
    unfold deleteProposals
    split
    · rename_i proposalId hid
      rw [ih hrest]
      refine AList.lookup_erase_ne fun he => ?_
      exact hkept created List.mem_cons_self (he ▸ hid)
    · exact ih hrest

def documentTime (h : Host) (document : Bytes) : Option ℚ :=
  match (createdAt h document).result with
  | .ok created => created.time
  | .error _ => none

theorem documentTime_eq {document : Bytes} {created : CreatedAt}
    (hc : (createdAt h document).result = .ok created) :
    documentTime h document = created.time := by
  unfold documentTime
  rw [hc]

theorem createdTimes_ensures (entries : List (Bytes × Bytes)) (times : KvMap CreatedAt Bytes) :
    Logged.Ensures (createdTimeToProposalIdMap h entries times) fun times' =>
      (∀ t id, times'.lookup t = some id → times.lookup t = some id ∨
        ∃ document created, (id, document) ∈ entries ∧
          (createdAt h document).result = .ok created ∧ t = created.heldBy id) ∧
      (∀ t ∈ times, t ∈ times') ∧
      ∀ e ∈ entries, ∃ created, (createdAt h e.2).result = .ok created ∧
        created.heldBy e.1 ∈ times' := by
  induction entries generalizing times with
  | nil => exact .pure ⟨fun _ _ hl => .inl hl, fun _ hc => hc, by simp⟩
  | cons e entries ih =>
    obtain ⟨proposalId, proposal⟩ := e
    refine .step fun created hcreated => (ih _).mono fun times' => ?_
    rintro ⟨hids, hold, hnew⟩
    refine ⟨fun t id hl => ?_, fun t ht => hold t (KvMap.mem_set.mpr (.inr ht)), ?_⟩
    · rcases hids t id hl with hset | ⟨document, created', hmem, ht⟩
      · by_cases he : t = created.heldBy proposalId
        · rw [he, KvMap.lookup_set, Option.some_inj] at hset
          subst hset
          exact .inr ⟨proposal, created, List.mem_cons_self, hcreated, he⟩
        · exact .inl (by rwa [KvMap.lookup_set_ne _ he] at hset)
      · exact .inr ⟨document, created', List.mem_cons_of_mem _ hmem, ht⟩
    · rw [List.forall_mem_cons]
      exact ⟨⟨created, hcreated, hold _ (KvMap.mem_set.mpr (.inl rfl))⟩, hnew⟩

theorem mem_visited (kv : Kv) (id document : Bytes) :
    (id, document) ∈ visited h kv ↔ kv.proposals.lookup id = some document := by
  unfold visited
  rw [(h.visitOrder_perm _).mem_iff, List.mem_map, ← Option.mem_def, AList.mem_lookup_iff]
  constructor
  · rintro ⟨⟨_, _⟩, hmem, he⟩
    cases he
    exact hmem
  · exact fun hmem => ⟨_, hmem, rfl⟩

structure KeptTimes (h : Host) (kv : Kv) (times : KvMap CreatedAt Bytes) : Prop where
  ids : ∀ t id, times.lookup t = some id → ∃ document created,
    kv.proposals.lookup id = some document ∧ (createdAt h document).result = .ok created ∧
      t = created.heldBy id
  covers : ∀ id document, kv.proposals.lookup id = some document →
    ∃ created, (createdAt h document).result = .ok created ∧ created.heldBy id ∈ times

theorem keptTimes_ensures (kv : Kv) :
    Logged.Ensures (createdTimeToProposalIdMap h (visited h kv) ∅) (KeptTimes h kv) := by
  refine (createdTimes_ensures _ _).mono fun times => ?_
  rintro ⟨hids, -, hcovers⟩
  refine ⟨fun t id hl => ?_, fun id document hl => ?_⟩
  · rcases hids t id hl with hempty | ⟨document, created, hmem, hcreated⟩
    · cases hempty
    · exact ⟨document, created, (mem_visited kv id document).mp hmem, hcreated⟩
  · exact hcovers (id, document) ((mem_visited kv id document).mpr hl)

section Saved

variable {times : KvMap CreatedAt Bytes} {created : CreatedAt} {n : ℚ}
  (hn : created.time = some n) (hbar : ∀ t ∈ times.keys, ∃ k, t = .number (.finite k) ∧ k ≤ n)
include hn hbar

/-- The newest time is not among those that are forgotten. -/
theorem created_not_forgotten {id : Bytes} {sorted : List CreatedAt}
    (hsorted : sortTimes h (times.set created id).keys = .ok sorted) :
    created ∉ sorted.take (sorted.length - proposalsToKeep) := by
  have hmem (t : CreatedAt) (ht : t ∈ (times.set created id).keys) :
      t = created ∨ ∃ k, t = .number (.finite k) ∧ k ≤ n := by
    rw [← AList.mem_keys, KvMap.mem_set] at ht
    exact ht.imp_right fun ht => hbar t (AList.mem_keys.mp ht)
  obtain ⟨hperm, horder, hbig⟩ := sortTimes_spec hsorted fun t ht => by
    rcases hmem t ht with rfl | ⟨k, rfl, -⟩
    · exact ⟨n, hn⟩
    · exact ⟨k, rfl⟩
  intro hforgotten
  have hlength : proposalsToKeep < sorted.length := by
    by_contra hle
    rw [Nat.sub_eq_zero_of_le (not_lt.mp hle), List.take_zero] at hforgotten
    cases hforgotten
  unfold proposalsToKeep at hlength hforgotten
  -- More than one time is compared, so all of them are numbers.
  have hnumber : ∀ t ∈ sorted, ∃ k, t = .number (.finite k) ∧ k ≤ n := by
    intro t ht
    have ht' := hperm.mem_iff.mp ht
    rcases hmem t ht' with rfl | hk
    · have hnot := hbig (by rw [← hperm.length_eq]; omega) t ht'
      exact ⟨n, number_of_time hn hnot, le_rfl⟩
    · exact hk
  refine newest_not_taken horder (hperm.nodup_iff.mpr (AList.keys_nodup _))
    (fun t ht => (hnumber t ht).imp fun _ hk => hk.1) (fun t ht => ?_) (by omega) hforgotten
  obtain ⟨k, rfl, hk⟩ := hnumber t ht
  rw [hn]
  exact hk

theorem saveProposal_spec {kv : Kv} (hkept : KeptTimes h kv times) {document : Bytes}
    (hcreated : (createdAt h document).result = .ok created)
    (hsame : ∀ d, kv.proposals.lookup (h.sha256 document) = some d → d = document)
    {proposals : KvMap Bytes Bytes}
    (hs : saveProposal h times created document kv.proposals = .ok proposals) :
    proposals.lookup (h.sha256 document) = some document ∧
      ∀ id d, proposals.lookup id = some d →
        (id = h.sha256 document ∧ d = document) ∨ kv.proposals.lookup id = some d := by
  obtain ⟨sorted, hsorted, hs⟩ := Logged.bind_ok_iff.mp hs
  cases hs
  constructor
  · rw [deleteProposals_keeps, AList.lookup_insert]
    intro t ht hid
    have hne : t ≠ created := fun he => created_not_forgotten hn hbar hsorted (he ▸ ht)
    rw [KvMap.lookup_set_ne _ hne] at hid
    obtain ⟨d, created', hd, htime, ht'⟩ := hkept.ids t _ hid
    rw [hsame d hd, hcreated] at htime
    cases htime
    rw [CreatedAt.heldBy_of_time hn] at ht'
    exact hne ht'
  · intro id d hl
    have hinsert := deleteProposals_subset hl
    by_cases he : id = h.sha256 document
    · subst he
      rw [AList.lookup_insert] at hinsert
      cases hinsert
      exact .inl ⟨rfl, rfl⟩
    · exact .inr (by rwa [AList.lookup_insert_ne he] at hinsert)

end Saved

theorem actions_keep_proposals {name : String} {action : Action}
    (ha : (name, action) ∈ actions h.toEngine) {kv kv' : Kv} {args : JsValue}
    (hk : action.apply kv args = .ok kv') : kv'.proposals = kv.proposals := by
  simp only [actions, List.mem_cons, Prod.mk.injEq, List.not_mem_nil, or_false] at ha
  rcases ha with ⟨-, rfl⟩ | ⟨-, rfl⟩ | ⟨-, rfl⟩ | ⟨-, rfl⟩ | ⟨-, rfl⟩
  · obtain ⟨policy, -, hk⟩ := Logged.bind_ok_iff.mp hk
    obtain ⟨text, -, hk⟩ := Logged.bind_ok_iff.mp hk
    cases hk
    rfl
  · obtain ⟨keyRelease, -, hk⟩ := Logged.bind_ok_iff.mp hk
    cases hk
    rfl
  · obtain ⟨gcpKeyRelease, -, hk⟩ := Logged.bind_ok_iff.mp hk
    cases hk
    rfl
  · obtain ⟨policy, -, hk⟩ := Logged.bind_ok_iff.mp hk
    obtain ⟨text, -, hk⟩ := Logged.bind_ok_iff.mp hk
    cases hk
    rfl
  · obtain ⟨issuer, -, hk⟩ := Logged.bind_ok_iff.mp hk
    obtain ⟨key, -, hk⟩ := Logged.bind_ok_iff.mp hk
    obtain ⟨policy, -, hk⟩ := Logged.bind_ok_iff.mp hk
    obtain ⟨text, -, hk⟩ := Logged.bind_ok_iff.mp hk
    cases hk
    rfl

theorem findAction_mem {name : JsValue} {action : Action} (ha : findAction h name = some action) :
    ∃ key, (key, action) ∈ actions h.toEngine := by
  unfold findAction at ha
  split at ha
  · obtain ⟨before, after, hactions, -⟩ := List.lookup_eq_some_iff.mp ha
    exact ⟨_, hactions ▸ List.mem_append_right _ List.mem_cons_self⟩
  · cases ha

theorem applyActions_ensures (logContext : LogContext) (caller : Caller) (kv : Kv)
    (results : List IProposalResult) (proposalActions : List Json) :
    Logged.Ensures (applyActions h logContext caller kv results proposalActions) fun r =>
      r.1.proposals = kv.proposals ∧ ∀ failure, r.2 = .error failure → failure.isFailure = true := by
  induction proposalActions generalizing kv results with
  | nil => exact .pure ⟨rfl, by simp⟩
  | cons proposalAction rest ih =>
    refine .skip fun name => ?_
    cases hname : findAction h name with
    | none =>
      dsimp only
      refine .step fun failure hf => .pure ⟨rfl, ?_⟩
      intro failure' he
      cases he
      cases hf
      rfl
    | some action =>
      dsimp only
      obtain ⟨key, hmem⟩ := findAction_mem hname
      refine .skip fun args => .skip fun _ => .read fun kv' hk => .skip fun _ => ?_
      refine (ih kv' _).mono fun r hr => ⟨hr.1.trans ?_, hr.2⟩
      exact actions_keep_proposals hmem hk

/-- The document passes the bar of the store, and is saved in it. -/
def PassesBar (h : Host) (kv : Kv) (document : Bytes) (kv' : Kv) : Prop :=
  ∃ times created last, KeptTimes h kv times ∧ (createdAt h document).result = .ok created ∧
    mathMax h times.keys = .ok last ∧ createdBefore h created last = .ok false ∧
    saveProposal h times created document kv.proposals = .ok kv'.proposals

theorem acceptProposal_ensures (logContext : LogContext) (kv : Kv) (request : Request) :
    Logged.Ensures (acceptProposal h logContext kv request) fun r =>
      r.1.isFailure = false → PassesBar h kv request.body r.2 := by
  refine .skip fun caller => .skip fun content => .skip fun requestBody => ?_
  refine .bind (keptTimes_ensures kv) fun times hkept => .step fun created hcreated => ?_
  refine .read fun last hlast => .read fun before hbefore => .ite
    (fun _ => .skip fun _ => .skip fun _ => .step fun failure hf => ?_) ?_
  · cases hf
    exact .pure fun hfail => by cases hfail
  · intro hbar
    refine .skip fun proposalActions => ?_
    refine .bind (applyActions_ensures logContext caller kv [] proposalActions) fun r hr => ?_
    obtain ⟨kv', outcome⟩ := r
    obtain ⟨hproposals, hfailure⟩ := hr
    cases outcome with
    | error failure =>
      refine .pure fun hfail => ?_
      rw [hfailure failure rfl] at hfail
      cases hfail
    | ok results =>
      refine .read fun proposals hsave => .skip fun response => .pure fun _ => ?_
      rw [hproposals] at hsave
      have hbar : before = false := by simpa using hbar
      exact ⟨times, created, last, hkept, hcreated, hlast, hbar ▸ hbefore, hsave⟩

theorem checkPermissions_ensures (kv : Kv) (logContext : LogContext) (request : Request) :
    Logged.Ensures (checkPermissions h kv logContext request) fun o =>
      ∀ failure, o = some failure → failure.isFailure = true := by
  have hfailed (errorMessage : String) (code : ℕ) : Logged.Ensures
      (do
        let failure ← ServiceResult.failed h.toEngine (.of errorMessage) code logContext []
        pure (some failure) : Handler (Option ProposalResponse))
      fun o => ∀ failure, o = some failure → failure.isFailure = true := by
    refine .step fun response hr => .pure fun failure he => ?_
    cases hr
    cases he
    rfl
  refine .skip fun _ => .skip fun caller => .ite (fun _ => ?_) fun _ => hfailed _ _
  refine .skip fun id => ?_
  cases colonSeparated id with
  | none => exact hfailed _ _
  | some callerId =>
    refine .skip fun _ => .skip fun roles => .skip fun administrator => .skip fun contributor => ?_
    exact .ite (fun _ => .pure (by simp)) fun _ => hfailed _ _

theorem checkAcl_ensures (kv : Kv) (logContext : LogContext) (request : Request) :
    Logged.Ensures (checkAcl h kv logContext request) fun o =>
      ∀ failure, o = some failure → failure.isFailure = true :=
  .ite (fun _ => checkPermissions_ensures kv logContext request) fun _ => .pure (by simp)

theorem submitProposal_ensures (logContext : LogContext) (kv : Kv) (request : Request) :
    Logged.Ensures (submitProposal h logContext kv request) fun r =>
      r.1.isFailure = false → PassesBar h kv request.body r.2 := by
  refine .bind (checkAcl_ensures kv logContext request) fun refused hr => ?_
  cases refused with
  | some failure =>
    refine .pure fun hfail => ?_
    rw [hr failure rfl] at hfail
    cases hfail
  | none => exact acceptProposal_ensures logContext kv request

theorem postProposals_ensures (t : Moment) (kv : Kv) (request : Request) :
    Logged.Ensures (postProposals h t kv request) fun r =>
      r.1.isFailure = false → PassesBar h kv request.body r.2 := by
  refine .skip fun serviceRequest => .skip fun identity => ?_
  obtain ⟨caller, identity⟩ := identity
  cases identity with
  | failure error code headers => exact .pure fun hfail => by cases hfail
  | success identity headers => exact submitProposal_ensures _ kv request
  | pending headers => exact submitProposal_ensures _ kv request

structure Post where
  moment : Moment
  request : Request

def Post.document (p : Post) : Bytes := p.request.body

/-- The transaction of a call: a failure or an uncaught error rolls it back. -/
def post (h : Host) (kv : Kv) (p : Post) : Option Kv :=
  match (postProposals h p.moment kv p.request).result with
  | .ok (response, kv') => if response.isFailure then none else some { kv' with version := kv.version + 1 }
  | .error _ => none

theorem passesBar_of_post {kv kv' : Kv} {p : Post} (hp : post h kv p = some kv') :
    PassesBar h kv p.document kv' := by
  unfold post at hp
  split at hp
  · rename_i response kv₁ hresult
    split_ifs at hp with hfail
    cases hp
    exact postProposals_ensures p.moment kv p.request _ hresult (by simpa using hfail)
  · cases hp

def Timed (h : Host) (r : ℚ → ℚ → Prop) (a b : Bytes) : Prop :=
  ∃ m n, documentTime h a = some m ∧ documentTime h b = some n ∧ r m n

theorem Timed.trans {r r' r'' : ℚ → ℚ → Prop} {a b c : Bytes} (hab : Timed h r a b)
    (hbc : Timed h r' b c) (hr : ∀ m k n, r m k → r' k n → r'' m n) : Timed h r'' a c := by
  obtain ⟨m, k, hm, hk, hmk⟩ := hab
  obtain ⟨k', n, hk', hn, hkn⟩ := hbc
  cases hk.symm.trans hk'
  exact ⟨m, n, hm, hn, hr m k n hmk hkn⟩

theorem Timed.lt_of_le {a b : Bytes} (hab : Timed h (· ≤ ·) a b)
    (hne : documentTime h a ≠ documentTime h b) : Timed h (· < ·) a b := by
  obtain ⟨m, n, hm, hn, hle⟩ := hab
  refine ⟨m, n, hm, hn, lt_of_le_of_ne hle fun he => hne ?_⟩
  rw [hm, hn, he]

theorem not_timed_self {a : Bytes} : ¬ Timed h (· < ·) a a := by
  rintro ⟨m, n, hm, hn, hlt⟩
  cases hm.symm.trans hn
  exact lt_irrefl _ hlt

/-- The greatest creation time among the documents that are kept. -/
def newestTime (h : Host) (kv : Kv) : Option ℚ :=
  (kv.proposals.entries.filterMap fun e => documentTime h e.2).max?

/-- The store after these documents were accepted, in this order. -/
structure ReplayBar (h : Host) (kv : Kv) (documents : List Bytes) : Prop where
  timed : ∀ d ∈ documents, ∃ n, documentTime h d = some n
  stored : ∀ id d, kv.proposals.lookup id = some d → id = h.sha256 d ∧ d ∈ documents
  newest : ∀ d, documents.getLast? = some d → kv.proposals.lookup (h.sha256 d) = some d
  ordered : documents.Pairwise (Timed h (· ≤ ·))

theorem replayBar_empty {kv : Kv} (hkv : kv.proposals = ∅) : ReplayBar h kv [] where
  timed d hd := by cases hd
  stored id d hl := by
    rw [hkv] at hl
    cases hl
  newest d hd := by cases hd
  ordered := .nil

theorem exists_last {documents : List Bytes} {d : Bytes} (hd : d ∈ documents) :
    ∃ last, documents.getLast? = some last :=
  ⟨_, List.getLast?_eq_some_getLast (List.ne_nil_of_mem hd)⟩

section Bar

variable {kv : Kv} {documents : List Bytes} (hb : ReplayBar h kv documents)
include hb

theorem ReplayBar.le_last {d last : Bytes} (hd : d ∈ documents)
    (hlast : documents.getLast? = some last) : Timed h (· ≤ ·) d last := by
  obtain ⟨before, rfl⟩ := List.getLast?_eq_some_iff.mp hlast
  rcases List.mem_append.mp hd with hbefore | hlast
  · exact (pairwise_snoc.mp hb.ordered).2 d hbefore
  · rw [List.mem_singleton.mp hlast]
    obtain ⟨n, hn⟩ := hb.timed last (by simp)
    exact ⟨n, n, hn, hn, le_rfl⟩

/-- A document that passes the bar is not older than any that is kept, and is kept itself. -/
theorem ReplayBar.passes {document : Bytes} {kv' : Kv} (hpass : PassesBar h kv document kv')
    {n : ℚ} (hn : documentTime h document = some n)
    (hinj : ∀ d ∈ documents, h.sha256 d = h.sha256 document → d = document) :
    (∀ id d, kv.proposals.lookup id = some d → ∃ k, documentTime h d = some k ∧ k ≤ n) ∧
      kv'.proposals.lookup (h.sha256 document) = some document ∧
      ∀ id d, kv'.proposals.lookup id = some d →
        (id = h.sha256 document ∧ d = document) ∨ kv.proposals.lookup id = some d := by
  obtain ⟨times, created, last, hkept, hcreated, hlast, hbar, hsave⟩ := hpass
  have hcreatedTime : created.time = some n := (documentTime_eq hcreated).symm.trans hn
  have hall : ∀ t ∈ times.keys, ∃ k, t.time = some k := by
    intro t ht
    obtain ⟨id, hid⟩ := Option.isSome_iff_exists.mp (AList.lookup_isSome.mpr (AList.mem_keys.mpr ht))
    obtain ⟨d, created', hd, htime, rfl⟩ := hkept.ids t id hid
    obtain ⟨k, hk⟩ := hb.timed d (hb.stored id d hd).2
    rw [documentTime_eq htime] at hk
    exact ⟨k, by rw [CreatedAt.time_heldBy, hk]⟩
  have hnumbers := not_before_any hlast hall hcreatedTime hbar
  refine ⟨fun id d hd => ?_, saveProposal_spec hcreatedTime hnumbers hkept hcreated ?_ hsave⟩
  · obtain ⟨t, ht, hmem⟩ := hkept.covers id d hd
    obtain ⟨k, htk, hk⟩ := hnumbers _ (AList.mem_keys.mp hmem)
    refine ⟨k, ?_, hk⟩
    rw [documentTime_eq ht, ← CreatedAt.time_heldBy id, htk]
    rfl
  · intro d hd
    obtain ⟨hid, hmem⟩ := hb.stored _ d hd
    exact hinj d hmem hid.symm

theorem ReplayBar.newestTime_eq {last : Bytes} (hlast : documents.getLast? = some last) :
    newestTime h kv = documentTime h last := by
  obtain ⟨n, hn⟩ := hb.timed last (List.mem_of_getLast? hlast)
  unfold newestTime
  rw [hn, List.max?_eq_some_iff]
  simp only [List.mem_filterMap]
  constructor
  · have hmem : (⟨h.sha256 last, last⟩ : Sigma fun _ : Bytes => Bytes) ∈ kv.proposals.entries :=
      AList.mem_lookup_iff.mp (hb.newest last hlast)
    exact ⟨_, hmem, hn⟩
  · rintro m ⟨⟨id, d⟩, hmem, hm⟩
    obtain ⟨-, hd⟩ := hb.stored id d (AList.mem_lookup_iff.mpr hmem)
    obtain ⟨m', n', hm', hn', hle⟩ := hb.le_last hd hlast
    cases hm.symm.trans hm'
    cases hn.symm.trans hn'
    exact hle

theorem ReplayBar.last_le {document last : Bytes} {kv' : Kv}
    (hpass : PassesBar h kv document kv') {n : ℚ} (hn : documentTime h document = some n)
    (hinj : ∀ d ∈ documents, h.sha256 d = h.sha256 document → d = document)
    (hlast : documents.getLast? = some last) : Timed h (· ≤ ·) last document := by
  obtain ⟨hkept, -⟩ := hb.passes hpass hn hinj
  obtain ⟨k, hk, hle⟩ := hkept _ last (hb.newest last hlast)
  exact ⟨k, n, hk, hn, hle⟩

/-- The bar rises with each document that passes it. -/
theorem ReplayBar.step {document : Bytes} {kv' : Kv} (hpass : PassesBar h kv document kv')
    {n : ℚ} (hn : documentTime h document = some n)
    (hinj : ∀ d ∈ documents, h.sha256 d = h.sha256 document → d = document) :
    ReplayBar h kv' (documents ++ [document]) := by
  obtain ⟨-, hsaved, hstored⟩ := hb.passes hpass hn hinj
  refine ⟨forall_mem_snoc.mpr ⟨hb.timed, n, hn⟩, fun id d hl => ?_, ?_, ?_⟩
  · rcases hstored id d hl with ⟨rfl, rfl⟩ | hold
    · exact ⟨rfl, by simp⟩
    · exact (hb.stored id d hold).imp_right (List.mem_append_left _)
  · intro d hd
    rw [List.getLast?_concat] at hd
    cases hd
    exact hsaved
  · refine pairwise_snoc.mpr ⟨hb.ordered, fun d hd => ?_⟩
    obtain ⟨last, hlast⟩ := exists_last hd
    exact (hb.le_last hd hlast).trans (hb.last_le hpass hn hinj hlast) fun _ _ _ => le_trans

end Bar

def documentsOf (posts : List Post) : Set Bytes := {d | ∃ p ∈ posts, p.document = d}

section Posts

variable {posted : Set Bytes} (hinj : Set.InjOn h.sha256 posted) {kv kv' : Kv}
  {documents : List Bytes} (hposted : ∀ d ∈ documents, d ∈ posted) {p : Post}
  (hp : p.document ∈ posted) (htime : ∃ n, documentTime h p.document = some n)
  (hpost : post h kv p = some kv')
include hinj hposted hp htime hpost

theorem ReplayBar.grow (hb : ReplayBar h kv documents) :
    ReplayBar h kv' (documents ++ [p.document]) := by
  obtain ⟨n, hn⟩ := htime
  refine hb.step (passesBar_of_post hpost) hn fun d hd he => ?_
  exact hinj (hposted d hd) hp he

theorem ReplayBar.not_older (hb : ReplayBar h kv documents) :
    ∀ d ∈ documents, Timed h (· ≤ ·) d p.document := by
  exact (pairwise_snoc.mp (hb.grow hinj hposted hp htime hpost).ordered).2

theorem ReplayBar.newer (hb : ReplayBar h kv documents)
    (hne : documentTime h p.document ≠ newestTime h kv) :
    ∀ d ∈ documents, Timed h (· < ·) d p.document := by
  intro d hd
  obtain ⟨last, hlast⟩ := exists_last hd
  rw [hb.newestTime_eq hlast] at hne
  have hle := hb.not_older hinj hposted hp htime hpost last (List.mem_of_getLast? hlast)
  exact (hb.le_last hd hlast).trans (hle.lt_of_le (Ne.symm hne)) fun _ _ _ => lt_of_le_of_lt

end Posts

section Replays

variable (h) {kv : Kv} (hkv : kv.proposals = ∅) {posts : List Post}
  (hinj : Set.InjOn h.sha256 (documentsOf posts))
  (htimes : ∀ p ∈ posts, ∃ n, documentTime h p.document = some n)
include hkv hinj htimes

theorem accepted_pairwise {P : Kv → Post → Prop} (hP : Throughout (post h) P kv posts)
    {r : ℚ → ℚ → Prop}
    (hr : ∀ kv documents p kv', ReplayBar h kv documents →
      (∀ d ∈ documents, d ∈ documentsOf posts) → p.document ∈ documentsOf posts →
      (∃ n, documentTime h p.document = some n) → P kv p → post h kv p = some kv' →
      ∀ d ∈ documents, Timed h r d p.document) :
    ((accepted (post h) kv posts).map Post.document).Pairwise (Timed h r) := by
  let R (kv : Kv) (documents : List Bytes) : Prop :=
    ReplayBar h kv documents ∧ (∀ d ∈ documents, d ∈ documentsOf posts) ∧
      documents.Pairwise (Timed h r)
  have hall := hP.and fun p hp => (⟨⟨p, hp, rfl⟩, htimes p hp⟩ :
    p.document ∈ documentsOf posts ∧ ∃ n, documentTime h p.document = some n)
  have hrun : R (run (commit (post h)) kv posts)
      ((accepted (post h) kv posts).map Post.document) :=
    run_history Post.document ?_ ⟨replayBar_empty hkv, by simp, .nil⟩ hall
  · exact hrun.2.2
  · rintro kv documents p kv' ⟨hcondition, hp, htime⟩ ⟨hb, hposted, hrelated⟩ hpost
    refine ⟨hb.grow hinj hposted hp htime hpost, forall_mem_snoc.mpr ⟨hposted, hp⟩,
      pairwise_snoc.mpr ⟨hrelated, ?_⟩⟩
    exact hr kv documents p kv' hb hposted hp htime hcondition hpost

/-- Accepted documents never get older, whatever is posted. -/
theorem accepted_in_order :
    ((accepted (post h) kv posts).map Post.document).Pairwise (Timed h (· ≤ ·)) := by
  refine accepted_pairwise h hkv hinj htimes (P := fun _ _ => True)
    (throughout_of_forall (fun _ _ _ => trivial) kv) ?_
  intro kv documents p kv' hb hposted hp htime _ hpost
  exact hb.not_older hinj hposted hp htime hpost

/-- Where no document is as old as the bar, accepted ones get newer, and none comes twice. -/
theorem accepted_increasing
    (hnew : Throughout (post h) (fun kv p => documentTime h p.document ≠ newestTime h kv) kv posts) :
    ((accepted (post h) kv posts).map Post.document).Pairwise (Timed h (· < ·)) ∧
      ((accepted (post h) kv posts).map Post.document).Nodup := by
  have hincreasing := accepted_pairwise h hkv hinj htimes hnew (r := (· < ·)) ?_
  · refine ⟨hincreasing, hincreasing.imp fun {a b} hab he => ?_⟩
    rw [he] at hab
    exact not_timed_self hab
  · intro kv documents p kv' hb hposted hp htime hne hpost
    exact hb.newer hinj hposted hp htime hpost hne

end Replays

def sampleContentBytes : Bytes := strToBuf (sampleContent.stringify sampleEngine)

def sampleDocument (created : UInt8) : Bytes :=
  [0xd2, 0x84, 0x58, 0x19, 0xa1, 0x76] ++ strToBuf "ccf.gov.msg.created_at" ++ [created, 0xa0] ++
    [0x58, UInt8.ofNat sampleContentBytes.length] ++ sampleContentBytes ++ [0x41, 0]

def samplePost (created : UInt8) : Post :=
  ⟨sampleMoment 0, [("x-request-id", "1")], "", sampleDocument created,
    .error ⟨"unexpected token"⟩,
    some ⟨.one "user_cose_sign1", some "ab12", none, some sampleContentBytes, "\x7b\x7d"⟩, []⟩

theorem sample_times (created : UInt8) (hc : created ∈ ([1, 2] : List UInt8)) :
    documentTime sampleHost (sampleDocument created) = some (created.toNat : ℚ) := by
  simp only [List.mem_cons, List.not_mem_nil, or_false] at hc
  rcases hc with rfl | rfl <;> decide +kernel

theorem sample_documents_injective :
    Set.InjOn sampleHost.sha256 (documentsOf [samplePost 1, samplePost 2]) := by
  have hdistinct : sampleHost.sha256 (sampleDocument 1) ≠ sampleHost.sha256 (sampleDocument 2) := by
    decide +kernel
  rintro _ ⟨p, hp, rfl⟩ _ ⟨q, hq, rfl⟩ he
  simp only [List.mem_cons, List.not_mem_nil, or_false] at hp hq
  rcases hp with rfl | rfl <;> rcases hq with rfl | rfl
  · rfl
  · exact absurd he hdistinct
  · exact absurd he.symm hdistinct
  · rfl

theorem sample_documents_timed (p : Post) (hp : p ∈ [samplePost 1, samplePost 2]) :
    ∃ n, documentTime sampleHost p.document = some n := by
  simp only [List.mem_cons, List.not_mem_nil, or_false] at hp
  rcases hp with rfl | rfl
  · exact ⟨_, sample_times 1 (by simp)⟩
  · exact ⟨_, sample_times 2 (by simp)⟩

theorem sample_documents_new :
    Throughout (post sampleHost)
      (fun kv p => documentTime sampleHost p.document ≠ newestTime sampleHost kv) Kv.empty
      [samplePost 1, samplePost 2] :=
  ⟨by decide +kernel, by decide +kernel, trivial⟩

theorem sample_accepted_increasing :
    ((accepted (post sampleHost) Kv.empty [samplePost 1, samplePost 2]).map
        Post.document).Pairwise (Timed sampleHost (· < ·)) ∧
      ((accepted (post sampleHost) Kv.empty [samplePost 1, samplePost 2]).map
        Post.document).Nodup :=
  accepted_increasing sampleHost rfl sample_documents_injective sample_documents_timed
    sample_documents_new

/-- The same document, posted twice, is accepted twice. -/
theorem replay_accepted :
    Set.InjOn sampleHost.sha256 (documentsOf [samplePost 1, samplePost 1]) ∧
      (∀ p ∈ [samplePost 1, samplePost 1], ∃ n, documentTime sampleHost p.document = some n) ∧
      ¬ ((accepted (post sampleHost) Kv.empty [samplePost 1, samplePost 1]).map
        Post.document).Pairwise (Timed sampleHost (· < ·)) ∧
      ¬ ((accepted (post sampleHost) Kv.empty [samplePost 1, samplePost 1]).map
        Post.document).Nodup := by
  have hfirst : (post sampleHost Kv.empty (samplePost 1)).isSome = true := by decide +kernel
  have hsecond : ((post sampleHost Kv.empty (samplePost 1)).bind fun kv =>
      post sampleHost kv (samplePost 1)).isSome = true := by decide +kernel
  obtain ⟨kv₁, hkv₁⟩ := Option.isSome_iff_exists.mp hfirst
  rw [hkv₁, Option.bind_some] at hsecond
  obtain ⟨kv₂, hkv₂⟩ := Option.isSome_iff_exists.mp hsecond
  have haccepted : (accepted (post sampleHost) Kv.empty [samplePost 1, samplePost 1]).map
      Post.document = [sampleDocument 1, sampleDocument 1] := by
    simp only [accepted, hkv₁, hkv₂]
    rfl
  have hsame (p : Post) (hp : p ∈ [samplePost 1, samplePost 1]) : p = samplePost 1 := by
    simpa using hp
  rw [haccepted]
  refine ⟨?_, fun p hp => ?_, fun hpairwise => ?_, by simp⟩
  · rintro _ ⟨p, hp, rfl⟩ _ ⟨q, hq, rfl⟩ -
    rw [hsame p hp, hsame q hq]
  · rw [hsame p hp]
    exact ⟨_, sample_times 1 (by simp)⟩
  · rw [List.pairwise_pair] at hpairwise
    exact not_timed_self hpairwise

end DepaKms
