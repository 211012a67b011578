import DepaKms.Service

set_option autoImplicit false

/-!
# The service as a ledger

For what it keeps, the service is a list that only grows: one entry for each key that
is made and one for each proposal that is accepted. The stores are read off the list.
-/
namespace DepaKms

inductive Entry
  | key (kid : String) (stored : StoredItem)
  | proposal (document : Bytes) (actions : List ProposedAction)

namespace Entry

def keys : Entry → List (String × StoredItem)
  | key kid stored => [(kid, stored)]
  | proposal _ _ => []

def documents : Entry → List Bytes
  | key _ _ => []
  | proposal document _ => [document]

def actions : Entry → List ProposedAction
  | key _ _ => []
  | proposal _ actions => actions

end Entry

/-- The arguments of the actions on one map, in their order. -/
def editsOf (m : PolicyMap) (actions : List ProposedAction) : List JsValue :=
  (actions.filter fun a => a.map = m).map ProposedAction.args

abbrev Ledger := List Entry

namespace Ledger

def keys (l : Ledger) : List (String × StoredItem) := l.flatMap Entry.keys

def documents (l : Ledger) : List Bytes := l.flatMap Entry.documents

def edits (l : Ledger) (m : PolicyMap) : List JsValue := editsOf m (l.flatMap Entry.actions)

theorem keys_append (l added : Ledger) : keys (l ++ added) = keys l ++ keys added :=
  List.flatMap_append

theorem documents_append (l added : Ledger) :
    documents (l ++ added) = documents l ++ documents added :=
  List.flatMap_append

theorem edits_append (l added : Ledger) (m : PolicyMap) :
    edits (l ++ added) m = edits l m ++ edits added m := by
  unfold edits editsOf
  rw [List.flatMap_append, List.filter_append, List.map_append]

theorem edits_proposal (document : Bytes) (actions : List ProposedAction) (m : PolicyMap) :
    edits [.proposal document actions] m = editsOf m actions := by
  unfold edits
  rw [List.flatMap_singleton]
  rfl

end Ledger

/-- The service as it is installed, with the tables of the network that say who its users and
    members are. -/
def Kv.deployed (kv : Kv) : Kv :=
  { Kv.empty with
    jwtIssuers := kv.jwtIssuers, usersCerts := kv.usersCerts, membersCerts := kv.membersCerts,
    membersInfo := kv.membersInfo, userRoles := kv.userRoles }

/-- The documents that are kept once this one is accepted. -/
def keepDocument (h : Host) (proposals : KvMap Bytes Bytes) (document : Bytes) :
    KvMap Bytes Bytes :=
  match (createdTimeToProposalIdMap h (visited h { Kv.empty with proposals }) ∅).result,
    (createdAt h document).result with
  | .ok times, .ok created =>
    (saveProposal h times created document proposals).toOption.getD proposals
  | _, _ => proposals

/-- The store is what the entries of the ledger make of an initial one. -/
structure Represents (h : Host) (kv₀ kv : Kv) (l : Ledger) : Prop where
  keys : KeyLog kv l.keys
  policies : ∀ m : PolicyMap, kv.policy m =
    run (commit (m.change h.toEngine)) (kv₀.policy m) (l.edits m)
  effective : ∀ m : PolicyMap,
    accepted (m.change h.toEngine) (kv₀.policy m) (l.edits m) = l.edits m
  proposals : kv.proposals = l.documents.foldl (keepDocument h) ∅
  identities : kv.deployed = kv₀.deployed

section Refinement

variable {h : Host} {kv₀ kv kv' : Kv} {l : Ledger}

theorem represents_deployed (kv : Kv) : Represents h kv.deployed kv.deployed [] where
  keys := ⟨by simp [Ledger.keys], .empty, by simp [Ledger.keys]⟩
  policies m := rfl
  effective m := rfl
  proposals := rfl
  identities := rfl

/-- Each map after a batch of actions is what those on the map make of it. -/
theorem policy_of_actions {E : Engine} {actions : List ProposedAction}
    (hall : actions.foldlM (ProposedAction.enact E) kv = some kv') (m : PolicyMap) :
    kv'.policy m = run (commit (m.change E)) (kv.policy m) (editsOf m actions) ∧
      accepted (m.change E) (kv.policy m) (editsOf m actions) = editsOf m actions := by
  obtain ⟨haccepted, rfl⟩ := (foldlM_eq_some_iff _).mp hall
  have hcomponents := ProposedAction.componentwise E
  constructor
  · unfold editsOf
    rw [run_map]
    exact hcomponents.read_run kv actions m
  · unfold editsOf
    rw [accepted_map]
    exact congrArg (List.map ProposedAction.args) (hcomponents.accepted_eq haccepted m)

theorem Admits.keeps {document : Bytes} {proposals : KvMap Bytes Bytes}
    (ha : Admits h kv document proposals) : proposals = keepDocument h kv.proposals document := by
  obtain ⟨times, created, last, htimes, hcreated, -, -, hsave⟩ := ha
  have hvisited : visited h { Kv.empty with proposals := kv.proposals } = visited h kv := rfl
  unfold keepDocument
  rw [hvisited, htimes, hcreated]
  dsimp only
  rw [hsave]
  rfl

/-- What is kept was kept before, or is the document itself under its hash. -/
theorem keepDocument_subset {proposals : KvMap Bytes Bytes} {document id d : Bytes}
    (hl : (keepDocument h proposals document).lookup id = some d) :
    (id = h.sha256 document ∧ d = document) ∨ proposals.lookup id = some d := by
  unfold keepDocument at hl
  split at hl
  · rename_i times created htimes hcreated
    cases hsave : saveProposal h times created document proposals with
    | error e =>
      rw [hsave] at hl
      exact .inr hl
    | ok saved =>
      rw [hsave] at hl
      obtain ⟨sorted, -, hsave⟩ := Logged.bind_ok_iff.mp hsave
      cases hsave
      have hinsert := deleteProposals_subset hl
      by_cases he : id = h.sha256 document
      · subst he
        rw [AList.lookup_insert] at hinsert
        cases hinsert
        exact .inl ⟨rfl, rfl⟩
      · exact .inr (by rwa [AList.lookup_insert_ne he] at hinsert)
  · exact .inr hl

theorem Admits.saved {document : Bytes} {proposals : KvMap Bytes Bytes}
    (ha : Admits h kv document proposals) {id d : Bytes} (hl : proposals.lookup id = some d) :
    (id = h.sha256 document ∧ d = document) ∨ kv.proposals.lookup id = some d := by
  rw [ha.keeps] at hl
  exact keepDocument_subset hl

theorem Represents.documents (hr : Represents h kv₀ kv l) {id d : Bytes}
    (hl : kv.proposals.lookup id = some d) : id = h.sha256 d ∧ d ∈ l.documents := by
  rw [hr.proposals] at hl
  revert hl
  generalize l.documents = documents
  induction documents using List.reverseRecOn with
  | nil => intro hl; cases hl
  | append_singleton documents document ih =>
    rw [List.foldl_append]
    intro hl
    rcases keepDocument_subset hl with ⟨rfl, rfl⟩ | hold
    · exact ⟨rfl, by simp⟩
    · exact (ih hold).imp_right (List.mem_append_left _)

theorem Represents.read (hr : Represents h kv₀ kv l) : Represents h kv₀ kv.read l where
  keys := hr.keys.congr rfl rfl
  policies m := by
    rw [← hr.policies m]
    cases m <;> rfl
  effective := hr.effective
  proposals := hr.proposals
  identities := hr.identities

theorem Represents.addKey (hr : Represents h kv₀ kv l) {t : Moment} {keys : CryptoKeyPair}
    {kid : String} {item : IKeyItem} (hnew : NewKey h t keys kv kid item) :
    Represents h kv₀ (kv.addKey (LastestItemStore.size kv + 1) kid item)
      (l ++ [.key kid ⟨item, kv.version⟩]) where
  keys := by
    have hnumbered := hnew.numbered
    have hbounded := hnew.bounded
    rw [hr.keys.size_eq] at hnumbered hbounded ⊢
    rw [Ledger.keys_append]
    exact hr.keys.addKey hnumbered hbounded
  policies m := by
    rw [Ledger.edits_append]
    change _ = run _ _ (l.edits m ++ [])
    rw [List.append_nil, ← hr.policies m]
    cases m <;> rfl
  effective m := by
    rw [Ledger.edits_append]
    change accepted _ _ (l.edits m ++ []) = l.edits m ++ []
    rw [List.append_nil]
    exact hr.effective m
  proposals := by
    rw [Ledger.documents_append]
    change kv.proposals = (l.documents ++ []).foldl _ _
    rw [List.append_nil]
    exact hr.proposals
  identities := hr.identities

theorem Represents.enacts (hr : Represents h kv₀ kv l) {request : Request}
    {actions : List ProposedAction} (he : Enacts h kv request actions kv') :
    Represents h kv₀ kv' (l ++ [.proposal request.body actions]) := by
  obtain ⟨-, kv₁, proposals, hall, hadmits, rfl⟩ := he
  have hkept := enacted_withoutPolicies hall
  have hids := congrArg Kv.hpkeKeyIds hkept
  have hkeys := congrArg Kv.hpkeKeys hkept
  have hidentities := congrArg Kv.deployed hkept
  refine ⟨?_, fun m => ?_, fun m => ?_, ?_, hidentities.trans hr.identities⟩
  · rw [Ledger.keys_append]
    change KeyLog _ (l.keys ++ [])
    rw [List.append_nil]
    exact hr.keys.congr hids hkeys
  · rw [Ledger.edits_append, Ledger.edits_proposal, run_append, ← hr.policies m,
      ← (policy_of_actions hall m).1]
    cases m <;> rfl
  · rw [Ledger.edits_append, Ledger.edits_proposal, accepted_append, hr.effective m,
      ← hr.policies m, (policy_of_actions hall m).2]
  · rw [Ledger.documents_append, List.foldl_append, ← hr.proposals]
    exact hadmits.keeps

/-- The key is the record of the pair that this refresh got. -/
structure Makes (h : Host) (x : Transaction) (key : String × StoredItem) : Prop where
  record : ∃ keys jwk n expiry, x.operation = .keys (.refresh keys) ∧
    h.eddsaPemToJwk keys.privateKey = .ok jwk ∧
    key.2.item = newKeyItem h x.moment keys jwk n expiry
  kid : key.2.item.kid = some key.1

theorem Makes.timestamp {x : Transaction} {key : String × StoredItem} (hm : Makes h x key) :
    key.2.item.timestamp = some x.moment.now := by
  obtain ⟨keys, jwk, n, expiry, -, -, hrecord⟩ := hm.record
  rw [hrecord]
  rfl

/-- The entry is the one that an accepted call leaves behind. -/
def Records (h : Host) (x : Transaction) : Entry → Prop
  | .key kid stored => Makes h x (kid, stored)
  | .proposal document actions => x.operation = .postProposals ∧ document = x.request.body ∧
      requestActions h x.request = some actions

/-- One call: an entry for one that writes, and nothing for the others. -/
theorem represents_serve (hr : Represents h kv₀ kv l) {x : Transaction}
    (hs : serve h kv x = some kv') :
    ∃ entries, List.Forall₂ (Records h) ([x].filter Transaction.writes) entries ∧
      Represents h kv₀ kv' (l ++ entries) := by
  cases serve_cases hs with
  | read hreads hkv =>
    refine ⟨[], by simp [hreads], ?_⟩
    rw [hkv, List.append_nil]
    exact hr.read
  | key keys hrefresh kid item hnew hkv =>
    refine ⟨[.key kid ⟨item, kv.version⟩], ?_, ?_⟩
    · rw [List.filter_cons_of_pos (by simp [Transaction.writes, hrefresh])]
      obtain ⟨jwk, expiry, hjwk, hrecord⟩ := hnew.record
      exact .cons ⟨⟨keys, jwk, _, expiry, hrefresh, hjwk, hrecord⟩, hnew.kid_eq⟩ .nil
    · rw [hkv]
      exact (hr.addKey hnew).read
  | proposal hpost logContext actions kv₁ hmay henacts hkv =>
    refine ⟨[.proposal x.request.body actions], ?_, ?_⟩
    · rw [List.filter_cons_of_pos (by simp [Transaction.writes, hpost])]
      exact .cons ⟨hpost, rfl, henacts.1⟩ .nil
    · rw [hkv, ← henacts.version_eq]
      exact (hr.enacts henacts).read

/-- The actions of an accepted call. -/
def Transaction.actions (h : Host) (x : Transaction) : List ProposedAction :=
  match x.operation with
  | .postProposals => (requestActions h x.request).getD []
  | _ => []

theorem actions_of_reads {x : Transaction} (hx : x.writes = false) : x.actions h = [] := by
  obtain ⟨operation, t, request⟩ := x
  cases operation with
  | postProposals => cases hx
  | _ => rfl

theorem Records.actions_eq {x : Transaction} {e : Entry} (hr : Records h x e) :
    e.actions = x.actions h := by
  cases e with
  | key kid stored =>
    obtain ⟨⟨keys, jwk, n, expiry, hx, -⟩, -⟩ := hr
    unfold Transaction.actions
    rw [hx]
    rfl
  | proposal document actions =>
    obtain ⟨hx, -, hactions⟩ := hr
    unfold Transaction.actions
    rw [hx, hactions]
    rfl

theorem recorded_actions {xs : List Transaction} {entries : Ledger}
    (hr : List.Forall₂ (Records h) (xs.filter Transaction.writes) entries) :
    entries.flatMap Entry.actions = xs.flatMap (Transaction.actions h) := by
  induction xs generalizing entries with
  | nil =>
    cases hr
    rfl
  | cons x xs ih =>
    cases hx : x.writes with
    | false =>
      rw [List.filter_cons_of_neg (by simp [hx])] at hr
      rw [List.flatMap_cons, actions_of_reads hx, List.nil_append]
      exact ih hr
    | true =>
      rw [List.filter_cons_of_pos hx] at hr
      cases hr with
      | cons he hrest => rw [List.flatMap_cons, List.flatMap_cons, he.actions_eq, ih hrest]

theorem represents_run (hr : Represents h kv₀ kv l) (xs : List Transaction) :
    ∃ entries,
      List.Forall₂ (Records h) ((accepted (serve h) kv xs).filter Transaction.writes) entries ∧
        Represents h kv₀ (run (commit (serve h)) kv xs) (l ++ entries) := by
  induction xs generalizing kv l with
  | nil => exact ⟨[], .nil, by simpa using hr⟩
  | cons x xs ih =>
    rw [run_cons, commit, accepted.eq_2]
    cases hs : serve h kv x with
    | none => exact ih hr
    | some kv' =>
      obtain ⟨first, hfirst, hr'⟩ := represents_serve hr hs
      obtain ⟨rest, hrest, hrun⟩ := ih hr'
      refine ⟨first ++ rest, ?_, ?_⟩
      · change List.Forall₂ _ (([x] ++ accepted (serve h) kv' xs).filter _) _
        rw [List.filter_append]
        exact List.rel_append hfirst hrest
      · rw [List.append_assoc] at hrun
        exact hrun

end Refinement

/-- The service as a sequence of calls leaves it. -/
def serviceAfter (h : Host) (kv : Kv) (xs : List Transaction) : Kv :=
  run (commit (serve h)) kv.deployed xs

theorem serviceAfter_append (h : Host) (kv : Kv) (xs later : List Transaction) :
    serviceAfter h kv (xs ++ later) = run (commit (serve h)) (serviceAfter h kv xs) later :=
  run_append _ _ _ _

/-- The arguments of the actions on the map, over the accepted proposals of the calls. -/
def acceptedEdits (h : Host) (kv : Kv) (xs : List Transaction) (m : PolicyMap) : List JsValue :=
  editsOf m ((accepted (serve h) kv.deployed xs).flatMap (Transaction.actions h))

section Policies

variable {h : Host} {kv : Kv}

theorem represents_service (h : Host) (kv : Kv) (xs : List Transaction) :
    ∃ l : Ledger, List.Forall₂ (Records h)
        ((accepted (serve h) kv.deployed xs).filter Transaction.writes) l ∧
      Represents h kv.deployed (serviceAfter h kv xs) l ∧
      ∀ m, l.edits m = acceptedEdits h kv xs m := by
  obtain ⟨l, hrecords, hr⟩ := represents_run (represents_deployed (h := h) kv) xs
  rw [List.nil_append] at hr
  refine ⟨l, hrecords, hr, fun m => ?_⟩
  unfold Ledger.edits acceptedEdits
  rw [recorded_actions hrecords]

theorem deployed_policy (kv : Kv) (m : PolicyMap) : kv.deployed.policy m = ∅ := by
  cases m <;> rfl

/-- A policy map of the service is what the accepted edits make of an empty one. -/
theorem policy_of_service (h : Host) (kv : Kv) (xs : List Transaction) (m : PolicyMap) :
    (serviceAfter h kv xs).policy m =
        run (commit (m.change h.toEngine)) ∅ (acceptedEdits h kv xs m) ∧
      accepted (m.change h.toEngine) ∅ (acceptedEdits h kv xs m) = acceptedEdits h kv xs m := by
  obtain ⟨l, -, hr, hedits⟩ := represents_service h kv xs
  have hpolicy := hr.policies m
  have heffective := hr.effective m
  rw [hedits, deployed_policy] at hpolicy heffective
  exact ⟨hpolicy, heffective⟩

/-- What holds of an empty map and is kept by each edit holds of the map of the service. -/
theorem policy_keeps {m : PolicyMap} {R : KvMap String KvText → List JsValue → Prop}
    (hempty : R ∅ [])
    (hstep : ∀ map history args map', R map history → m.change h.toEngine map args = some map' →
      R map' (history ++ [args])) (kv : Kv) (xs : List Transaction) :
    R ((serviceAfter h kv xs).policy m) (acceptedEdits h kv xs m) := by
  obtain ⟨hpolicy, heffective⟩ := policy_of_service h kv xs m
  have hrun : R (run (commit (m.change h.toEngine)) ∅ (acceptedEdits h kv xs m))
      ((accepted (m.change h.toEngine) ∅ (acceptedEdits h kv xs m)).map id) :=
    run_history (P := fun _ _ => True) id
      (fun map history args map' _ hr hc => hstep map history args map' hr hc) hempty
      (throughout_of_forall (fun _ _ _ => trivial) _)
  rwa [List.map_id, heffective, ← hpolicy] at hrun

/-- The map is the one that the action itself makes of its own edits. -/
theorem policy_enacted (m : PolicyMap) (kv₀ : Kv) (hkv₀ : kv₀.policy m = ∅) (kv : Kv)
    (xs : List Transaction) :
    (serviceAfter h kv xs).policy m =
        (run (commit (m.action h.toEngine).enact) kv₀ (acceptedEdits h kv xs m)).policy m ∧
      accepted (m.action h.toEngine).enact kv₀ (acceptedEdits h kv xs m) =
        acceptedEdits h kv xs m := by
  obtain ⟨hpolicy, heffective⟩ := policy_of_service h kv xs m
  rw [← hkv₀] at hpolicy heffective
  obtain ⟨hview, haccepted⟩ := run_view (m.enact_view h.toEngine) kv₀ (acceptedEdits h kv xs m)
  exact ⟨hpolicy.trans hview.symm, haccepted.trans heffective⟩

end Policies

/-- In any interleaving of calls the store is read off one ledger, which has an entry for each
    accepted call that writes, and which later calls extend. -/
theorem service_refines_ledger (h : Host) (kv : Kv) (xs later : List Transaction) :
    ∃ l added : Ledger,
      List.Forall₂ (Records h)
        ((accepted (serve h) kv.deployed xs).filter Transaction.writes) l ∧
      Represents h kv.deployed (run (commit (serve h)) kv.deployed xs) l ∧
      List.Forall₂ (Records h) ((accepted (serve h) (run (commit (serve h)) kv.deployed xs)
        later).filter Transaction.writes) added ∧
      Represents h kv.deployed (run (commit (serve h)) kv.deployed (xs ++ later)) (l ++ added) := by
  obtain ⟨l, hrecords, hr⟩ := represents_run (represents_deployed (h := h) kv) xs
  rw [List.nil_append] at hr
  obtain ⟨added, hadded, hr'⟩ := represents_run hr later
  rw [run_append]
  exact ⟨l, added, hrecords, hr, hadded, hr'⟩

end DepaKms
