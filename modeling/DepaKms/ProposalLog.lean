import DepaKms.ReplayBar

set_option autoImplicit false

/-!
# The proposal log

As long as creation times rise, the documents that are kept are a window on the accepted
ones, and their times put them back in the order of acceptance.
-/
namespace DepaKms

variable {h : Host}

/-- The most recent of the documents, as many as are to be kept. -/
def lastAccepted (documents : List Bytes) : List Bytes :=
  documents.drop (documents.length - proposalsToKeep)

theorem lastAccepted_length (documents : List Bytes) :
    (lastAccepted documents).length = min documents.length proposalsToKeep := by
  unfold lastAccepted
  rw [List.length_drop]
  omega

theorem mem_of_lastAccepted {documents : List Bytes} {d : Bytes} (hd : d ∈ lastAccepted documents) :
    d ∈ documents := List.mem_of_mem_drop hd

theorem lastAccepted_snoc (documents : List Bytes) (d : Bytes) :
    lastAccepted (documents ++ [d]) = (lastAccepted documents ++ [d]).drop
      ((lastAccepted documents ++ [d]).length - proposalsToKeep) := by
  have hwindow : lastAccepted documents ++ [d] =
      (documents ++ [d]).drop (documents.length - proposalsToKeep) := by
    rw [List.drop_append_of_le_length (Nat.sub_le _ _)]
    rfl
  rw [hwindow, List.drop_drop]
  unfold lastAccepted
  congr 1
  simp only [List.length_append, List.length_singleton, List.length_drop]
  omega

/-- The creation time in the header of a document, `undefined` where there is no header. -/
def timeOf (h : Host) (document : Bytes) : CreatedAt :=
  match (createdAt h document).result with
  | .ok created => created
  | .error _ => .undefined

theorem timeOf_eq {document : Bytes} {created : CreatedAt}
    (hc : (createdAt h document).result = .ok created) : timeOf h document = created := by
  unfold timeOf
  rw [hc]

theorem documentTime_timeOf (document : Bytes) :
    documentTime h document = (timeOf h document).time := by
  unfold documentTime timeOf
  cases (createdAt h document).result <;> rfl

theorem createdAt_of_timed {document : Bytes} {n : ℚ} (hn : documentTime h document = some n) :
    (createdAt h document).result = .ok (timeOf h document) := by
  unfold documentTime at hn
  unfold timeOf
  cases hc : (createdAt h document).result with
  | ok created => rfl
  | error e =>
    rw [hc] at hn
    cases hn

/-- Documents in the order of their times. -/
def Rising (h : Host) (documents : List Bytes) : Prop := documents.Pairwise (Timed h (· < ·))

section Rising

variable {documents : List Bytes} (hr : Rising h documents)
include hr

theorem Rising.times :
    (documents.map (timeOf h)).Pairwise fun a b => a.time.getD 0 < b.time.getD 0 := by
  rw [List.pairwise_map]
  refine hr.imp fun {a b} hab => ?_
  obtain ⟨m, n, hm, hn, hlt⟩ := hab
  rw [documentTime_timeOf] at hm hn
  rw [hm, hn]
  exact hlt

theorem Rising.nodup : documents.Nodup := by
  refine hr.imp fun {a b} hab he => ?_
  rw [he] at hab
  exact not_timed_self hab

theorem Rising.time_injective {d d' : Bytes} (hd : d ∈ documents) (hd' : d' ∈ documents)
    (he : (timeOf h d).time.getD 0 = (timeOf h d').time.getD 0) : d = d' := by
  by_contra hne
  have hpairwise : documents.Pairwise fun a b =>
      (timeOf h a).time.getD 0 ≠ (timeOf h b).time.getD 0 := by
    have htimes := hr.times
    rw [List.pairwise_map] at htimes
    exact htimes.imp fun hlt => ne_of_lt hlt
  have : Std.Symm fun a b : Bytes =>
      (timeOf h a).time.getD 0 ≠ (timeOf h b).time.getD 0 := ⟨fun _ _ hab => Ne.symm hab⟩
  exact hpairwise.forall hd hd' hne he

theorem Rising.last : Rising h (lastAccepted documents) :=
  List.Pairwise.sublist (List.drop_sublist _ _) hr

end Rising

theorem rising_window {documents : List Bytes} {document : Bytes}
    (hr : Rising h (documents ++ [document])) : Rising h (lastAccepted documents ++ [document]) :=
  List.Pairwise.sublist ((List.drop_sublist _ _).append (List.Sublist.refl _)) hr

theorem mem_of_window {documents : List Bytes} {document d : Bytes}
    (hd : d ∈ lastAccepted documents ++ [document]) : d ∈ documents ++ [document] := by
  rcases List.mem_append.mp hd with hd | hd
  · exact List.mem_append_left _ (mem_of_lastAccepted hd)
  · exact List.mem_append_right _ hd

/-- What is ordered by the times of rising documents is in the order of the documents. -/
theorem sorted_eq_map {α : Type} {documents : List Bytes} (hr : Rising h documents)
    {f : Bytes → α} {key : α → ℚ} (hkey : ∀ d, key (f d) = (timeOf h d).time.getD 0)
    {sorted : List α} (hperm : sorted.Perm (documents.map f))
    (horder : sorted.Pairwise fun a b => key a ≤ key b) : sorted = documents.map f := by
  have htimes : (documents.map f).Pairwise fun a b => key a ≤ key b := by
    have hrising := hr.times
    rw [List.pairwise_map] at hrising ⊢
    refine hrising.imp fun {a b} hlt => ?_
    rw [hkey, hkey]
    exact le_of_lt hlt
  refine hperm.eq_of_pairwise ?_ horder htimes
  intro a b ha hb hab hba
  obtain ⟨d, hd, rfl⟩ := List.mem_map.mp (hperm.mem_iff.mp ha)
  obtain ⟨d', hd', rfl⟩ := List.mem_map.mp hb
  rw [hkey, hkey] at hab hba
  rw [hr.time_injective hd hd' (le_antisymm hab hba)]

theorem deleteProposals_forgets {times : KvMap CreatedAt Bytes} {proposals : KvMap Bytes Bytes}
    {forgotten : List CreatedAt} {created : CreatedAt} {id : Bytes} (hc : created ∈ forgotten)
    (hid : times.lookup created = some id) :
    (deleteProposals times proposals forgotten).lookup id = none := by
  induction forgotten generalizing proposals with
  | nil => cases hc
  | cons t forgotten ih =>
    unfold deleteProposals
    rcases List.mem_cons.mp hc with rfl | hc
    · rw [hid]
      dsimp only
      rw [← Option.not_isSome_iff_eq_none]
      intro hsome
      obtain ⟨d, hd⟩ := Option.isSome_iff_exists.mp hsome
      have herased := deleteProposals_subset hd
      rw [AList.lookup_erase] at herased
      cases herased
    · cases times.lookup t with
      | none => exact ih hc
      | some proposalId => exact ih hc

/-- The store after these documents were accepted, in this order, each newer than those before. -/
structure ProposalLog (h : Host) (kv : Kv) (documents : List Bytes) : Prop where
  rising : Rising h documents
  timed : ∀ d ∈ documents, ∃ n, documentTime h d = some n
  kept : ∀ id d, kv.proposals.lookup id = some d ↔ id = h.sha256 d ∧ d ∈ lastAccepted documents
  numbers : 2 ≤ documents.length → ∀ d ∈ lastAccepted documents, (timeOf h d).isBigint = false

theorem proposalLog_empty {kv : Kv} (hkv : kv.proposals = ∅) : ProposalLog h kv [] where
  rising := .nil
  timed d hd := by cases hd
  kept id d := by
    rw [hkv]
    constructor
    · intro hl
      cases hl
    · rintro ⟨-, hd⟩
      cases hd
  numbers hlength := by
    rw [List.length_nil] at hlength
    omega

section Log

variable {kv : Kv} {documents : List Bytes} (hlog : ProposalLog h kv documents)
include hlog

theorem ProposalLog.kept_time {id d : Bytes} (hd : kv.proposals.lookup id = some d)
    {created : CreatedAt} (hc : (createdAt h d).result = .ok created) :
    created.heldBy id = timeOf h d := by
  obtain ⟨n, hn⟩ := hlog.timed d (mem_of_lastAccepted ((hlog.kept id d).mp hd).2)
  rw [documentTime_eq hc] at hn
  rw [CreatedAt.heldBy_of_time hn, timeOf_eq hc]

theorem ProposalLog.times_perm {times : KvMap CreatedAt Bytes} (hkept : KeptTimes h kv times) :
    times.keys.Perm ((lastAccepted documents).map (timeOf h)) := by
  have hnodup : ((lastAccepted documents).map (timeOf h)).Nodup :=
    hlog.rising.last.times.imp fun {a b} hlt he => by
      rw [he] at hlt
      exact lt_irrefl _ hlt
  refine (List.perm_ext_iff_of_nodup times.keys_nodup hnodup).mpr fun t => ?_
  rw [← AList.mem_keys, List.mem_map]
  constructor
  · intro ht
    obtain ⟨id, hid⟩ := Option.isSome_iff_exists.mp (AList.lookup_isSome.mpr ht)
    obtain ⟨d, created, hd, htime, rfl⟩ := hkept.ids t id hid
    exact ⟨d, ((hlog.kept id d).mp hd).2, (hlog.kept_time hd htime).symm⟩
  · rintro ⟨d, hd, rfl⟩
    have hstored := (hlog.kept _ d).mpr ⟨rfl, hd⟩
    obtain ⟨created, htime, hmem⟩ := hkept.covers _ d hstored
    rwa [hlog.kept_time hstored htime] at hmem

theorem ProposalLog.time_lookup {times : KvMap CreatedAt Bytes} (hkept : KeptTimes h kv times)
    {d : Bytes} (hd : d ∈ lastAccepted documents) :
    times.lookup (timeOf h d) = some (h.sha256 d) := by
  have hstored := (hlog.kept _ d).mpr ⟨rfl, hd⟩
  obtain ⟨created, htime, hmem⟩ := hkept.covers _ d hstored
  rw [hlog.kept_time hstored htime] at hmem
  obtain ⟨id, hid⟩ := Option.isSome_iff_exists.mp (AList.lookup_isSome.mpr hmem)
  obtain ⟨d', created', hd', htime', he⟩ := hkept.ids _ id hid
  obtain ⟨hsha, hmem'⟩ := (hlog.kept id d').mp hd'
  have hsame : d' = d := by
    refine hlog.rising.last.time_injective hmem' hd ?_
    rw [he, hlog.kept_time hd' htime']
  rw [hid, hsha, hsame]

end Log

section Saving

variable {kv kv' : Kv} {documents : List Bytes} {document : Bytes}
  {times : KvMap CreatedAt Bytes} {created : CreatedAt}
  (hlog : ProposalLog h kv documents) (hkept : KeptTimes h kv times)
  (hcreated : (createdAt h document).result = .ok created)
  (hrising : Rising h (documents ++ [document]))
include hlog hkept hcreated hrising

/-- The time of the document is new to the store. -/
theorem created_fresh : created ∉ times := by
  intro hmem
  obtain ⟨d, hd, htime⟩ := List.mem_map.mp ((hlog.times_perm hkept).mem_iff.mp (AList.mem_keys.mp hmem))
  have hsame : d = document := by
    refine (rising_window hrising).time_injective
      (List.mem_append_left _ hd) (by simp) ?_
    rw [htime, timeOf_eq hcreated]
  have hdistinct := (pairwise_snoc.mp hrising).2 d (mem_of_lastAccepted hd)
  rw [hsame] at hdistinct
  exact not_timed_self hdistinct

theorem sorted_times {sorted : List CreatedAt}
    (hall : ∀ d ∈ lastAccepted documents ++ [document], ∃ n, documentTime h d = some n)
    (hsorted : sortTimes h (times.set created (h.sha256 document)).keys = .ok sorted) :
    sorted = (lastAccepted documents ++ [document]).map (timeOf h) ∧
      (2 ≤ (lastAccepted documents ++ [document]).length →
        ∀ d ∈ lastAccepted documents ++ [document], (timeOf h d).isBigint = false) := by
  have hfresh := created_fresh hlog hkept hcreated hrising
  have hperm : (times.set created (h.sha256 document)).keys.Perm
      ((lastAccepted documents ++ [document]).map (timeOf h)) := by
    rw [List.map_append, List.map_singleton, timeOf_eq hcreated]
    refine (KvMap.keys_set_perm hfresh _).trans ?_
    exact ((hlog.times_perm hkept).cons created).trans (List.perm_append_singleton _ _).symm
  obtain ⟨hsortedPerm, horder, hbig⟩ := sortTimes_spec hsorted fun t ht => by
    obtain ⟨d, hd, rfl⟩ := List.mem_map.mp (hperm.mem_iff.mp ht)
    obtain ⟨n, hn⟩ := hall d hd
    exact ⟨n, by rw [← documentTime_timeOf, hn]⟩
  refine ⟨sorted_eq_map (rising_window hrising) (fun _ => rfl) (hsortedPerm.trans hperm) horder,
    fun hlength d hd => ?_⟩
  refine hbig ?_ _ (hperm.mem_iff.mpr (List.mem_map_of_mem hd))
  rw [hperm.length_eq, List.length_map]
  exact hlength

theorem inserted_time {d : Bytes} (hd : d ∈ lastAccepted documents ++ [document]) :
    (times.set created (h.sha256 document)).lookup (timeOf h d) = some (h.sha256 d) := by
  rcases List.mem_append.mp hd with hd | hd
  · rw [KvMap.lookup_set_ne, hlog.time_lookup hkept hd]
    intro he
    refine created_fresh hlog hkept hcreated hrising (he ▸ AList.lookup_isSome.mp ?_)
    rw [hlog.time_lookup hkept hd]
    rfl
  · rw [List.mem_singleton.mp hd, timeOf_eq hcreated, KvMap.lookup_set]

variable (hinj : Set.InjOn h.sha256 {d | d ∈ documents ++ [document]})
include hinj

omit hkept hcreated hrising in
theorem inserted_document (id d : Bytes) :
    (kv.proposals.insert (h.sha256 document) document).lookup id = some d ↔
      id = h.sha256 d ∧ d ∈ lastAccepted documents ++ [document] := by
  by_cases he : id = h.sha256 document
  · rw [he, AList.lookup_insert, Option.some_inj]
    constructor
    · rintro rfl
      exact ⟨rfl, by simp⟩
    · rintro ⟨hsha, hd⟩
      exact hinj (by simp) (mem_of_window hd) hsha
  · rw [AList.lookup_insert_ne he, hlog.kept, List.mem_append, List.mem_singleton]
    constructor
    · exact fun hd => ⟨hd.1, .inl hd.2⟩
    · rintro ⟨hsha, hd | rfl⟩
      · exact ⟨hsha, hd⟩
      · exact absurd hsha he

theorem saved_window
    (hall : ∀ d ∈ lastAccepted documents ++ [document], ∃ n, documentTime h d = some n)
    {proposals : KvMap Bytes Bytes}
    (hsave : saveProposal h times created document kv.proposals = .ok proposals) (id d : Bytes) :
    proposals.lookup id = some d ↔
      id = h.sha256 d ∧ d ∈ lastAccepted (documents ++ [document]) := by
  obtain ⟨sorted, hsorted, hs⟩ := Logged.bind_ok_iff.mp hsave
  cases hs
  obtain ⟨rfl, -⟩ := sorted_times hlog hkept hcreated hrising hall hsorted
  have htime {d : Bytes} (hd : d ∈ lastAccepted documents ++ [document]) :=
    inserted_time hlog hkept hcreated hrising hd
  rw [List.length_map, ← List.map_take, lastAccepted_snoc]
  set window := lastAccepted documents ++ [document]
  set k := window.length - proposalsToKeep
  constructor
  · intro hl
    obtain ⟨rfl, hd⟩ := (inserted_document hlog hinj id d).mp (deleteProposals_subset hl)
    refine ⟨rfl, ?_⟩
    have hsplit : d ∈ window.take k ++ window.drop k := by
      rw [List.take_append_drop]
      exact hd
    refine (List.mem_append.mp hsplit).resolve_left fun hforgotten => ?_
    rw [deleteProposals_forgets (List.mem_map_of_mem hforgotten)
      (htime (List.mem_of_mem_take hforgotten))] at hl
    cases hl
  · rintro ⟨rfl, hd⟩
    have hmem := List.mem_of_mem_drop hd
    rw [deleteProposals_keeps]
    · exact (inserted_document hlog hinj _ d).mpr ⟨rfl, hmem⟩
    · intro t ht htimes
      obtain ⟨d', hd', rfl⟩ := List.mem_map.mp ht
      have hmem' := List.mem_of_mem_take hd'
      rw [htime hmem', Option.some_inj] at htimes
      have hsame : d' = d := hinj (mem_of_window hmem') (mem_of_window hmem) htimes
      rw [hsame] at hd'
      exact List.disjoint_take_drop (rising_window hrising).nodup le_rfl hd' hd

end Saving

/-- A newer document that passes the bar joins the window. -/
theorem ProposalLog.step {kv kv' : Kv} {documents : List Bytes} {document : Bytes}
    (hlog : ProposalLog h kv documents) (hpass : PassesBar h kv document kv')
    (hrising : Rising h (documents ++ [document]))
    (htimed : ∃ n, documentTime h document = some n)
    (hinj : Set.InjOn h.sha256 {d | d ∈ documents ++ [document]}) :
    ProposalLog h kv' (documents ++ [document]) := by
  obtain ⟨times, created, last, hkept, hcreated, -, -, hsave⟩ := hpass
  have hall : ∀ d ∈ documents ++ [document], ∃ n, documentTime h d = some n :=
    forall_mem_snoc.mpr ⟨hlog.timed, htimed⟩
  have hwindow (d : Bytes) (hd : d ∈ lastAccepted documents ++ [document]) := hall d (mem_of_window hd)
  obtain ⟨sorted, hsorted, -⟩ := Logged.bind_ok_iff.mp hsave
  obtain ⟨-, hnumbers⟩ := sorted_times hlog hkept hcreated hrising hwindow hsorted
  refine ⟨hrising, hall, saved_window hlog hkept hcreated hrising hinj hwindow hsave, ?_⟩
  intro hlength d hd
  rw [List.length_append, List.length_singleton] at hlength
  rw [lastAccepted_snoc] at hd
  refine hnumbers ?_ d (List.mem_of_mem_drop hd)
  rw [List.length_append, List.length_singleton, lastAccepted_length]
  unfold proposalsToKeep
  omega

theorem proposalTimes_result {entries : List (Bytes × Bytes)}
    (hall : ∀ e ∈ entries, ∃ n, documentTime h e.2 = some n) :
    (proposalTimes h entries).result = .ok (entries.map fun e => (e.1, timeOf h e.2)) := by
  induction entries with
  | nil => rfl
  | cons e entries ih =>
    obtain ⟨hfirst, hrest⟩ := List.forall_mem_cons.mp hall
    obtain ⟨n, hn⟩ := hfirst
    unfold proposalTimes
    rw [Logged.result_bind, createdAt_of_timed hn, Logged.ok_bind, Logged.result_bind, ih hrest]
    rfl

section Shown

variable {kv : Kv} {documents : List Bytes} (hlog : ProposalLog h kv documents)
include hlog

theorem visited_perm :
    (visited h kv).Perm ((lastAccepted documents).map fun d => (h.sha256 d, d)) := by
  have hentries : (kv.proposals.entries.map fun e => (e.1, e.2)).Nodup := by
    refine List.Nodup.map ?_ (List.NodupKeys.nodup kv.proposals.nodupKeys)
    rintro ⟨a, b⟩ ⟨c, d⟩ he
    cases he
    rfl
  have hnodup : (visited h kv).Nodup := (h.visitOrder_perm _).nodup_iff.mpr hentries
  have hwindow : ((lastAccepted documents).map fun d => (h.sha256 d, d)).Nodup :=
    List.Nodup.map (fun a b he => (Prod.ext_iff.mp he).2) hlog.rising.last.nodup
  refine (List.perm_ext_iff_of_nodup hnodup hwindow).mpr fun e => ?_
  obtain ⟨id, d⟩ := e
  rw [mem_visited, hlog.kept, List.mem_map]
  constructor
  · rintro ⟨rfl, hd⟩
    exact ⟨d, hd, rfl⟩
  · rintro ⟨d', hd', he⟩
    cases he
    exact ⟨rfl, hd'⟩

theorem getProposals_result :
    (getProposals h kv).result = .ok (.success ((lastAccepted documents).map hexString) []) := by
  have hperm := visited_perm hlog
  have hvisited (e : Bytes × Bytes) (he : e ∈ visited h kv) : e.2 ∈ lastAccepted documents := by
    obtain ⟨d, hd, rfl⟩ := List.mem_map.mp (hperm.mem_iff.mp he)
    exact hd
  have htimes := proposalTimes_result fun e he => hlog.timed _ (mem_of_lastAccepted (hvisited e he))
  have htimed : ∀ e ∈ (visited h kv).map fun e => (e.1, timeOf h e.2),
      ∃ n, e.2.time = some n := by
    intro e he
    obtain ⟨e', he', rfl⟩ := List.mem_map.mp he
    obtain ⟨n, hn⟩ := hlog.timed _ (mem_of_lastAccepted (hvisited e' he'))
    exact ⟨n, by rw [← documentTime_timeOf, hn]⟩
  have hnumbers : 2 ≤ ((visited h kv).map fun e => (e.1, timeOf h e.2)).length →
      ∀ e ∈ (visited h kv).map fun e => (e.1, timeOf h e.2),
        ∃ x, e.2.toNumber h.toEngine = .ok x := by
    intro hlength e he
    obtain ⟨n, hn⟩ := htimed e he
    obtain ⟨e', he', rfl⟩ := List.mem_map.mp he
    refine ⟨_, CreatedAt.toNumber_ok_iff.mpr ⟨hlog.numbers ?_ _ (hvisited e' he'),
      CreatedAt.compared_of_time hn⟩⟩
    rw [List.length_map, hperm.length_eq, List.length_map, lastAccepted_length] at hlength
    exact hlength.trans (min_le_left _ _)
  obtain ⟨sorted, hsorted⟩ := sortByTime_ok_iff.mpr hnumbers
  have hsortedPerm := sortByTime_perm hsorted
  have horder := sortByTime_ordered hsorted htimed
  have heq : sorted = (lastAccepted documents).map fun d => (h.sha256 d, timeOf h d) := by
    have hmapped := hperm.map fun e => (e.1, timeOf h e.2)
    rw [List.map_map] at hmapped
    exact sorted_eq_map hlog.rising.last (fun _ => rfl) (hsortedPerm.trans hmapped) horder
  have hlookup (d : Bytes) (hd : d ∈ lastAccepted documents) :
      ((kv.proposals.lookup (h.sha256 d)).map hexString).getD "" = hexString d := by
    rw [(hlog.kept _ d).mpr ⟨rfl, hd⟩]
    rfl
  unfold getProposals
  rw [Logged.result_bind, htimes, Logged.ok_bind, Logged.result_bind, Logged.result_lift, hsorted,
    Logged.ok_bind, heq, ServiceResult.result_succeeded, List.map_map]
  exact congrArg (fun proposals => Except.ok (ServiceResult.success proposals []))
    (List.map_congr_left hlookup)

end Shown

/-- The log is the last five of the documents. -/
structure KeepsLastFive (h : Host) (kv : Kv) (documents : List Bytes) : Prop where
  kept : ∀ id d, kv.proposals.lookup id = some d ↔ id = h.sha256 d ∧ d ∈ lastAccepted documents
  size : kv.proposals.keys.length = min documents.length 5
  listed : ∃ headers, (getProposals h kv).result =
    .ok (.success ((lastAccepted documents).map hexString) headers)

theorem ProposalLog.keepsLastFive {kv : Kv} {documents : List Bytes}
    (hlog : ProposalLog h kv documents) : KeepsLastFive h kv documents where
  kept := hlog.kept
  size := by
    have hlength := (visited_perm hlog).length_eq
    unfold visited at hlength
    rw [(h.visitOrder_perm _).length_eq, List.length_map, List.length_map,
      lastAccepted_length] at hlength
    unfold AList.keys List.keys
    rw [List.length_map]
    exact hlength
  listed := ⟨[], getProposals_result hlog⟩

section LogOfRun

variable (h) {kv : Kv} (hkv : kv.proposals = ∅) {posts : List Post}
  (hinj : Set.InjOn h.sha256 (documentsOf posts))
  (htimes : ∀ p ∈ posts, ∃ n, documentTime h p.document = some n)
include hkv hinj htimes

/-- As long as no document is as old as the newest one kept, the log is the last five documents
    that were accepted, shown in the order of their acceptance. -/
theorem log_is_last_five
    (hnew : Throughout (post h) (fun kv p => documentTime h p.document ≠ newestTime h kv) kv posts) :
    KeepsLastFive h (run (commit (post h)) kv posts)
      ((accepted (post h) kv posts).map Post.document) := by
  let R (kv : Kv) (documents : List Bytes) : Prop :=
    ReplayBar h kv documents ∧ ProposalLog h kv documents ∧ ∀ d ∈ documents, d ∈ documentsOf posts
  have hall := hnew.and fun p hp => (⟨⟨p, hp, rfl⟩, htimes p hp⟩ :
    p.document ∈ documentsOf posts ∧ ∃ n, documentTime h p.document = some n)
  have hrun : R (run (commit (post h)) kv posts)
      ((accepted (post h) kv posts).map Post.document) :=
    run_history Post.document ?_ ⟨replayBar_empty hkv, proposalLog_empty hkv, by simp⟩ hall
  · exact hrun.2.1.keepsLastFive
  · rintro kv documents p kv' ⟨hne, hp, htime⟩ ⟨hbar, hlog, hposted⟩ hpost
    have hgrown : ∀ d ∈ documents ++ [p.document], d ∈ documentsOf posts :=
      forall_mem_snoc.mpr ⟨hposted, hp⟩
    have hrising : Rising h (documents ++ [p.document]) :=
      pairwise_snoc.mpr ⟨hlog.rising, hbar.newer hinj hposted hp htime hpost hne⟩
    refine ⟨hbar.grow hinj hposted hp htime hpost, ?_, hgrown⟩
    exact hlog.step (passesBar_of_post hpost) hrising htime (hinj.mono hgrown)

end LogOfRun

def risingPosts : List Post := [1, 2, 3, 4, 5, 6, 7].map samplePost

/-- All seven are accepted, and the first two are forgotten. -/
theorem sample_log :
    ((accepted (post sampleHost) Kv.empty risingPosts).map Post.document).length = 7 ∧
      KeepsLastFive sampleHost (run (commit (post sampleHost)) Kv.empty risingPosts)
        ((accepted (post sampleHost) Kv.empty risingPosts).map Post.document) := by
  have hdistinct : (risingPosts.map fun p => sampleHost.sha256 p.document).Nodup := by
    decide +kernel
  have htimes : ∀ p ∈ risingPosts, (documentTime sampleHost p.document).isSome = true := by
    decide +kernel
  refine ⟨by decide +kernel, log_is_last_five sampleHost rfl ?_
    (fun p hp => Option.isSome_iff_exists.mp (htimes p hp)) ?_⟩
  · rintro _ ⟨p, hp, rfl⟩ _ ⟨q, hq, rfl⟩ he
    rw [List.inj_on_of_nodup_map hdistinct hp hq he]
  · exact ⟨by decide +kernel, by decide +kernel, by decide +kernel, by decide +kernel,
      by decide +kernel, by decide +kernel, by decide +kernel, trivial⟩

/-- A document of time 1 with a field in its unprotected header. -/
def twinDocument (field : UInt8) : Bytes :=
  [0xd2, 0x84, 0x58, 0x19, 0xa1, 0x76] ++ strToBuf "ccf.gov.msg.created_at" ++
    [1, 0xa1, field, 0, 0x58, UInt8.ofNat sampleContentBytes.length] ++ sampleContentBytes ++
    [0x41, 0]

def twinPost (field : UInt8) : Post :=
  ⟨sampleMoment 0, { (samplePost 1).request with body := twinDocument field }⟩

def twinPosts : List Post := [1, 2, 3, 4, 5, 6].map twinPost

/-- Of six documents with one creation time, none is forgotten. -/
theorem log_keeps_six :
    Set.InjOn sampleHost.sha256 (documentsOf twinPosts) ∧
      (∀ p ∈ twinPosts, ∃ n, documentTime sampleHost p.document = some n) ∧
      ¬ KeepsLastFive sampleHost (run (commit (post sampleHost)) Kv.empty twinPosts)
        ((accepted (post sampleHost) Kv.empty twinPosts).map Post.document) := by
  have hdistinct : (twinPosts.map fun p => sampleHost.sha256 p.document).Nodup := by decide +kernel
  have htimes : ∀ p ∈ twinPosts, documentTime sampleHost p.document = some 1 := by decide +kernel
  have hsize : (run (commit (post sampleHost)) Kv.empty twinPosts).proposals.keys.length = 6 := by
    decide +kernel
  refine ⟨?_, fun p hp => ⟨1, htimes p hp⟩, fun hlog => ?_⟩
  · rintro _ ⟨p, hp, rfl⟩ _ ⟨q, hq, rfl⟩ he
    rw [List.inj_on_of_nodup_map hdistinct hp hq he]
  · have hle := hlog.size
    rw [hsize] at hle
    omega

end DepaKms
