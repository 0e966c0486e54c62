import ClashSubParser.NodeIdentity

/-! The labels of nodes: the prefixes of the owning subscriptions before the name under which the first
of them lists the node. -/
namespace ClashSubParser

open Strings

structure InventoryLibraries extends Libraries where
  /-- `json.Marshal` of a string -/
  marshalString : String → String
  /-- `json.Marshal` of an integer -/
  marshalInt : Int → String
  /-- `json.Unmarshal` into a string variable with the value given first -/
  unmarshalString : String → String → Except String String
  /-- `json.Unmarshal` into a new integer variable -/
  unmarshalInt : String → Except String Int
  /-- what SQLite reads from the JSON string that `%q` prints for a text -/
  readQuoted : String → Option String

/-- The library functions on plain inputs: JSON strings without escapes, and decimal integers. -/
def asciiInventory : InventoryLibraries where
  toLibraries := asciiLibraries
  marshalString s := String.ofList ('"' :: s.toList ++ ['"'])
  marshalInt n := toString n
  unmarshalString _ text :=
    match text.toList with
    | '"' :: cs => if cs.getLast? = some '"' then .ok (String.ofList cs.dropLast) else .error "unexpected end"
    | _ => .error "invalid character"
  unmarshalInt text :=
    match Strconv.parseInt text with
    | some n => .ok n
    | none => .error "invalid character"
  readQuoted s := some s

def firstOccurrences : List String → List String → List String
  | _, [] => []
  | seen, s :: l => if s ∈ seen then firstOccurrences seen l else s :: firstOccurrences (s :: seen) l

/-- `strings.TrimPrefix`. -/
def Strings.trimInitial (s p : String) : String :=
  if hasPrefix s p then String.ofList (s.toList.drop p.toList.length) else s

namespace Inventory

variable (db : Inventory)

def owners (nodeID : String) : List SubscriptionRow :=
  (db.sources.rows.filterMap (fun s =>
    if s.nodeLogicalID = nodeID then db.subscriptions.get? s.subscriptionID else none)).insertionSort
      (fun a b => a.id ≤ b.id)

def previousLabel (owners : List SubscriptionRow) (prior : GoMap String) (subID : String) : String :=
  match prior.get? subID with
  | some label => label
  | none => ((owners.find? (fun s => s.id = subID)).map SubscriptionRow.namePrefix).getD ""

/-- The name of a node with owners. Where no entry names it, the labels it may carry are taken off its
present name. -/
def renderedName (nodeID : String) (prior : GoMap String) (current : String) : Option String :=
  match db.owners nodeID with
  | [] => none
  | first :: rest =>
    let owners := first :: rest
    let labels := firstOccurrences [""] (owners.map SubscriptionRow.namePrefix)
    let base := (db.latestRawName first.id nodeID).getD ""
    let strip :=
      if base ≠ "" then [first.namePrefix]
      else firstOccurrences [""] ((sortedSet (prior.entries.map Prod.fst ++ owners.map SubscriptionRow.id)).map
        (previousLabel owners prior))
    some (String.join labels ++ strip.foldl trimInitial (if base ≠ "" then base else current))

def rename (n : Node) (name : String) : Inventory :=
  if name = n.displayName then db else db.upsertNode { n with displayName := name }

variable (lib : InventoryLibraries)

def recomputeNodeDisplayName (prior : GoMap String) (nodeID : String) : Except GoError Inventory :=
  match db.nodes.get? nodeID with
  | none => .error (.plain "sql: no rows in result set")
  | some n =>
    match db.overrides.get? (nodeID, "display_name") with
    | some o =>
      match lib.unmarshalString n.displayName o.overrideValueJSON with
      | .error e => .error (.wrapped "invalid display name override: " (.plain e))
      | .ok name => .ok (db.rename n name)
    | none =>
      match db.renderedName nodeID prior n.displayName with
      | none => .ok db -- a node without owners keeps its last name
      | some name => .ok (db.rename n name)

def recomputeNodeDisplayNames (ids : List String) (prior : GoMap String) : Except GoError Inventory :=
  (firstOccurrences [] ids).foldlM (fun db id => db.recomputeNodeDisplayName lib prior id) db

variable {db lib} {db' : Inventory} {prior : GoMap String} {id : String}

theorem recomputeNodeDisplayName_cases (h : db.recomputeNodeDisplayName lib prior id = .ok db') :
    ∃ n, db.nodes.get? id = some n ∧ (db' = db ∨ ∃ name, db' = db.rename n name) := by
  rw [recomputeNodeDisplayName] at h
  cases hn : db.nodes.get? id with
  | none => simp [hn] at h
  | some n =>
    simp only [hn] at h
    refine ⟨n, rfl, ?_⟩
    split at h
    · split at h
      · cases h
      · cases h
        exact .inr ⟨_, rfl⟩
    · split at h
      · cases h
        exact .inl rfl
      · cases h
        exact .inr ⟨_, rfl⟩

end Inventory

def Node.unnamed (n : Node) : Node := { n with displayName := "" }

structure Inventory.OnlyRenamed (db db' : Inventory) : Prop where
  tables : db' = { db with nodes := db'.nodes }
  nodes : ∀ id, (db'.nodes.get? id).map Node.unnamed = (db.nodes.get? id).map Node.unnamed

namespace Inventory.OnlyRenamed

variable {db db' db'' : Inventory}

theorem refl (db : Inventory) : OnlyRenamed db db := ⟨rfl, fun _ => rfl⟩

theorem trans (h : OnlyRenamed db db') (h' : OnlyRenamed db' db'') : OnlyRenamed db db'' where
  tables := by rw [h'.tables, h.tables]
  nodes id := (h'.nodes id).trans (h.nodes id)

theorem rename {n : Node} (hn : db.nodes.get? n.logicalID = some n) (name : String) :
    OnlyRenamed db (db.rename n name) := by
  rw [Inventory.rename]
  split_ifs
  · exact refl db
  · refine ⟨rfl, ?_⟩
    intro id
    change ((db.nodes.put { n with displayName := name }).get? id).map _ = _
    by_cases hid : id = n.logicalID
    · have hs := db.nodes.get?_put_self { n with displayName := name }
      rw [hid, hs, hn]
      rfl
    · rw [db.nodes.get?_put_of_ne { n with displayName := name } hid]

variable {lib : InventoryLibraries} {prior : GoMap String}

theorem recomputeNodeDisplayName {id : String} (h : db.recomputeNodeDisplayName lib prior id = .ok db') :
    OnlyRenamed db db' := by
  obtain ⟨n, hn, rfl | ⟨name, rfl⟩⟩ := recomputeNodeDisplayName_cases h
  · exact refl db'
  · obtain ⟨-, rfl⟩ := KeyedTable.Table.get?_eq_some.mp hn
    exact rename hn name

/-- Recomputing labels changes nothing but the names of nodes. -/
theorem recomputeNodeDisplayNames {ids : List String} (h : db.recomputeNodeDisplayNames lib ids prior = .ok db') :
    OnlyRenamed db db' := by
  rw [Inventory.recomputeNodeDisplayNames] at h
  generalize firstOccurrences [] ids = distinct at h
  induction distinct generalizing db with
  | nil =>
    cases h
    exact refl _
  | cons id rest ih =>
    rw [List.foldlM_cons] at h
    cases hid : db.recomputeNodeDisplayName lib prior id with
    | error e =>
      rw [hid] at h
      cases h
    | ok next =>
      rw [hid] at h
      exact (recomputeNodeDisplayName hid).trans (ih h)

end Inventory.OnlyRenamed

end ClashSubParser
