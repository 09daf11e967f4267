import GraphDissect.Library.LinkedList
import GraphDissect.Library.Runs
import Mathlib

/-!
# The shared hash table

`libhfcommon/hash.c` for one table: nodes are taken one after another from a
unit of memory and chained into the pail of their key.  An id is turned back into
a node by division and remainder, where the last id falls into a second unit
that no table has; a table without keys never unchains a node.
-/

namespace GraphDissect.Drivers

open Library

section Layout

/-- `M_BASE_DATA_NUM`. -/
def baseDataNum : Nat := 16 * 1024

/-- `sizeof(hashNode_t)`. -/
def hashNodeSize : Nat := 40

theorem exists_buckets (nodes : Nat) :
    ∃ buckets, nodes <<< 3 ≤ buckets ∧ ∀ i ∈ List.range' 2 998, buckets % i ≠ 0 := by
  rcases Nat.exists_infinite_primes (max (nodes <<< 3) 1000) with ⟨prime, large, isPrime⟩
  refine ⟨prime, le_trans (le_max_left _ _) large, ?_⟩
  intro i member divides
  rw [List.mem_range'_1] at member
  rcases isPrime.eq_one_or_self_of_dvd i (Nat.dvd_of_mod_eq_zero divides) with rfl | rfl
  · omega
  · have := le_trans (le_max_right _ _) large
    omega

/-- `hash_calcBuckets`, for a number of nodes that leaves the result below `2 ^ 32`. -/
def calcBuckets (nodes : Nat) : Nat := Nat.find (exists_buckets nodes)

/-- `hash_hashKey`. -/
def hashKey (key : List UInt8) : UInt32 :=
  key.foldl (fun hash byte => ((hash <<< 5) + hash) + byte.toUInt32) 5381

/-- The header of a node and its key; its pointers are kept by the table. -/
structure HashNode where
  dataId : Nat
  pailIndex : Nat
  key : List UInt8

/-- A table.  A node is told by its place in the unit of memory, and the data
area of a node by its offset there. -/
structure HashTable where
  keyLen : Nat
  dataLen : Nat
  maxNodes : Nat
  initNodes : Nat
  unitCount : Nat
  nodeCount : Nat
  bucketCount : Nat
  nodes : Nat → HashNode
  pailNext : Nat → Option Nat
  pailPrev : Nat → Option Nat
  heads : Nat → Option Nat

structure HashAck where
  id : Nat
  data : Nat
  deriving DecidableEq

namespace HashTable

/-- `hash_createTable`. -/
def create (dataLen keyLen : Nat) : HashTable :=
  { keyLen
    dataLen
    maxNodes := baseDataNum
    initNodes := 0
    unitCount := 1
    nodeCount := baseDataNum
    bucketCount := calcBuckets baseDataNum
    nodes := fun _ => ⟨0, 0, List.replicate keyLen 0⟩
    pailNext := fun _ => none
    pailPrev := fun _ => none
    heads := fun _ => none }

variable (table : HashTable)

def nodeSize : Nat := hashNodeSize + table.keyLen + table.dataLen

/-- `DataArea` of the node at a place. -/
def dataArea (place : Nat) : Nat := table.nodeSize * place + hashNodeSize + table.keyLen

def ack (place : Nat) : HashAck := ⟨(table.nodes place).dataId, table.dataArea place⟩

def pailOf (key : List UInt8) : Nat := (hashKey key).toNat % table.bucketCount

def pail (index : Nat) : Links Nat :=
  { next := table.pailNext, pre := table.pailPrev, head := table.heads index }

def setPail (index : Nat) (links : Links Nat) : HashTable :=
  { table with
    pailNext := links.next
    pailPrev := links.pre
    heads := Function.update table.heads index links.head }

/-- `hash_newDataID`: the id is stored in 24 bits. -/
def newDataId : Nat := ((table.unitCount - 1) * table.maxNodes + (table.initNodes + 1)) % 2 ^ 24

/-- `hash_newNode`: the place of the node, and the table. -/
def newNode : Option (Nat × HashTable) :=
  if table.maxNodes ≤ table.initNodes then none
  else
    let place := table.initNodes
    some (place,
      { table with
        initNodes := table.initNodes + 1
        nodes := Function.update table.nodes place
          { table.nodes place with dataId := table.newDataId } })

/-- `hash_createByKey`. -/
def createByKey (key : List UInt8) : Option (HashAck × HashTable) :=
  if table.keyLen ≠ key.length then none
  else
    table.newNode.map fun (place, table) =>
      let index := table.pailOf key
      let table :=
        { table with
          nodes := Function.update table.nodes place
            { table.nodes place with key, pailIndex := index } }
      (table.ack place, table.setPail index ((table.pail index).pushFront place))

/-- `hash_queryByKey`; the outer `none` says that a chain is longer than the
number of nodes, so that the walk need not end. -/
def queryByKey (key : List UInt8) : Option (Option HashAck) :=
  if table.keyLen ≠ key.length then some none
  else
    (Links.search table.pailNext (fun place => decide ((table.nodes place).key = key))
      table.maxNodes (table.heads (table.pailOf key))).map (Option.map table.ack)

/-- The node of an id, as both functions on ids find it.  The list of memory
units has one element, so that the walk along it ends at null for every unit
but the first; in the first unit the remainder is not zero. -/
def nodeOfId (id : Nat) : Option Nat :=
  if id = 0 ∨ table.maxNodes < id then none
  else if id / table.nodeCount ≠ 0 then none
  else some (id % table.nodeCount - 1)

/-- `hash_queryByID`. -/
def queryByID (id : Nat) : Option HashAck := (table.nodeOfId id).map table.ack

/-- `hash_deleteByID`. -/
def deleteByID (id : Nat) : Option HashTable :=
  (table.nodeOfId id).map fun place =>
    if 0 < table.keyLen then
      let index := (table.nodes place).pailIndex
      table.setPail index ((table.pail index).unlink place)
    else table

end HashTable

end Layout

section Run

/-- A node that was created and not deleted since. -/
structure HashEntry where
  ack : HashAck
  key : List UInt8
  deriving DecidableEq

/-- The table, the answers of all successful creations and the live nodes, the
most recent first. -/
structure HashRun where
  table : HashTable
  created : List HashAck
  live : List HashEntry

inductive HashAction where
  | createByKey (key : List UInt8)
  | deleteByID (id : Nat)

namespace HashRun

def start (dataLen keyLen : Nat) : HashRun := ⟨HashTable.create dataLen keyLen, [], []⟩

/-- One call; only the id of a live node is deleted. -/
def step (run : HashRun) : HashAction → Option HashRun
  | .createByKey key =>
      match run.table.createByKey key with
      | none => some run
      | some (ack, table) => some ⟨table, ack :: run.created, ⟨ack, key⟩ :: run.live⟩
  | .deleteByID id =>
      if ∃ entry ∈ run.live, entry.ack.id = id then
        some
          { run with
            table := (run.table.deleteByID id).getD run.table
            live := run.live.filter fun entry => entry.ack.id ≠ id }
      else none

def inPail (run : HashRun) (index : Nat) : List HashEntry :=
  run.live.filter fun entry => run.table.pailOf entry.key = index

/-- Ids and keys lead to the nodes that they were given to, and every chain is
made of the live nodes of its pail. -/
structure Retrieves (run : HashRun) : Prop where
  byId : ∀ ack ∈ run.created, run.table.queryByID ack.id = some ack
  ownAreas : run.created.Pairwise fun later earlier =>
    earlier.id < later.id ∧ earlier.data + run.table.dataLen ≤ later.data
  insideUnit : ∀ ack ∈ run.created,
    ack.data + run.table.dataLen ≤ run.table.nodeSize * run.table.maxNodes
  byKey : ∀ key, run.table.queryByKey key =
    some ((run.live.find? fun entry => entry.key = key).map HashEntry.ack)
  chains : ∀ index, ∃ places, (run.table.pail index).Holds places ∧
    places.map run.table.ack = (run.inPail index).map HashEntry.ack

/-- A call that keeps off the last id and off deletions in a table without keys. -/
def Safe (run : HashRun) : HashAction → Prop
  | .createByKey key =>
      run.table.keyLen = key.length → run.table.initNodes + 1 ≠ run.table.maxNodes
  | .deleteByID id => (∃ entry ∈ run.live, entry.ack.id = id) → 0 < run.table.keyLen

end HashRun

end Run

namespace HashTable

variable {table : HashTable} {key : List UInt8} {index other place : Nat} {links : Links Nat}

/-- The table with a new node in the pail of a key. -/
def chained (table : HashTable) (key : List UInt8) : HashTable :=
  { table with
    initNodes := table.initNodes + 1
    nodes := Function.update table.nodes table.initNodes
      ⟨table.newDataId, table.pailOf key, key⟩ }.setPail (table.pailOf key)
    ((table.pail (table.pailOf key)).pushFront table.initNodes)

theorem createByKey_eq_some (fits : table.keyLen = key.length)
    (room : table.initNodes < table.maxNodes) :
    table.createByKey key =
      some ((table.chained key).ack table.initNodes, table.chained key) := by
  rw [createByKey, if_neg (not_not.mpr fits), newNode, if_neg (not_le.mpr room)]
  simp only [Option.map_some, Function.update_idem, Function.update_self]
  rfl

theorem createByKey_of_misfit (misfits : table.keyLen ≠ key.length) :
    table.createByKey key = none := if_pos misfits

theorem pail_setPail : (table.setPail index links).pail index = links := by
  simp only [pail, setPail, Function.update_self]

theorem holds_setPail {places : List Nat} (holds : (table.pail other).Holds places)
    (different : other ≠ index)
    (frame : ∀ place ∈ places, links.next place = table.pailNext place ∧
      links.pre place = table.pailPrev place) :
    ((table.setPail index links).pail other).Holds places := by
  apply holds.congr
  · exact Function.update_of_ne different _ _
  · exact fun place member => (frame place member).1
  · exact fun place member => (frame place member).2

theorem nodes_chained_of_ne (earlier : place ≠ table.initNodes) :
    (table.chained key).nodes place = table.nodes place :=
  Function.update_of_ne earlier _ _

theorem nodes_chained_self :
    (table.chained key).nodes table.initNodes = ⟨table.newDataId, table.pailOf key, key⟩ :=
  Function.update_self _ _ _

theorem ack_chained_of_ne (earlier : place ≠ table.initNodes) :
    (table.chained key).ack place = table.ack place := by
  rw [ack, nodes_chained_of_ne earlier]
  rfl

theorem nodeOfId_succ (unit : table.nodeCount = table.maxNodes)
    (below : place + 1 < table.maxNodes) : table.nodeOfId (place + 1) = some place := by
  rw [nodeOfId, if_neg (by omega), unit, Nat.div_eq_of_lt below, Nat.mod_eq_of_lt below]
  rfl

theorem nodeOfId_last (unit : table.nodeCount = table.maxNodes) :
    table.nodeOfId table.maxNodes = none := by
  unfold nodeOfId
  split
  · rfl
  · rename_i inRange
    rw [unit, Nat.div_self (by omega), if_pos (by omega)]

end HashTable

namespace HashRun

def place (entry : HashEntry) : Nat := entry.ack.id - 1

/-- What holds between the calls of a run that keeps off the last id. -/
structure Sound (run : HashRun) : Prop where
  unit : run.table.nodeCount = run.table.maxNodes
  oneUnit : run.table.unitCount = 1
  small : run.table.maxNodes < 2 ^ 24
  room : run.table.initNodes < run.table.maxNodes
  ids : ∀ place < run.table.initNodes, (run.table.nodes place).dataId = place + 1
  created : run.created = (List.range run.table.initNodes).reverse.map run.table.ack
  live : ∀ entry ∈ run.live, place entry < run.table.initNodes ∧
    entry.ack = run.table.ack (place entry) ∧
    run.table.nodes (place entry) =
      ⟨entry.ack.id, run.table.pailOf entry.key, entry.key⟩ ∧
    run.table.keyLen = entry.key.length
  distinct : (run.live.map place).Nodup
  chains : ∀ index, (run.table.pail index).Holds ((run.inPail index).map place)

variable {run next : HashRun} {key : List UInt8} {index : Nat}

theorem start_sound (dataLen keyLen : Nat) : (start dataLen keyLen).Sound where
  unit := rfl
  oneUnit := rfl
  small := by
    change baseDataNum < 2 ^ 24
    decide
  room := by
    change 0 < baseDataNum
    decide
  ids := fun _ below => absurd below (Nat.not_lt_zero _)
  created := rfl
  live := fun _ member => absurd member List.not_mem_nil
  distinct := List.nodup_nil
  chains := fun _ => ⟨rfl, trivial, List.nodup_nil⟩

theorem mem_inPail {entry : HashEntry} :
    entry ∈ run.inPail index ↔ entry ∈ run.live ∧ run.table.pailOf entry.key = index := by
  rw [inPail, List.mem_filter, decide_eq_true_eq]

theorem Sound.ack_eq (sound : run.Sound) {place : Nat} (made : place < run.table.initNodes) :
    run.table.ack place = ⟨place + 1, run.table.dataArea place⟩ := by
  rw [HashTable.ack, sound.ids place made]

theorem Sound.newDataId (sound : run.Sound) :
    run.table.newDataId = run.table.initNodes + 1 := by
  have := sound.small
  have := sound.room
  rw [HashTable.newDataId, sound.oneUnit, Nat.sub_self, Nat.zero_mul, Nat.zero_add,
    Nat.mod_eq_of_lt (by omega)]

theorem Sound.eq_of_place (sound : run.Sound) {entry other : HashEntry}
    (member : entry ∈ run.live) (otherMember : other ∈ run.live)
    (same : place entry = place other) : entry = other :=
  List.inj_on_of_nodup_map sound.distinct member otherMember same

theorem Sound.apart (sound : run.Sound) {other place : Nat} (different : other ≠ index)
    (here : place ∈ (run.inPail index).map HashRun.place) :
    place ∉ (run.inPail other).map HashRun.place := by
  intro there
  rcases List.mem_map.mp here with ⟨entry, member, rfl⟩
  rcases List.mem_map.mp there with ⟨twin, twinMember, same⟩
  rw [mem_inPail] at member twinMember
  cases sound.eq_of_place twinMember.1 member.1 same
  exact different (twinMember.2.symm.trans member.2)

theorem Sound.mem_created (sound : run.Sound) {ack : HashAck} (member : ack ∈ run.created) :
    ∃ place < run.table.initNodes, ack = run.table.ack place := by
  rw [sound.created, List.mem_map] at member
  rcases member with ⟨place, inRange, rfl⟩
  exact ⟨place, List.mem_range.mp (List.mem_reverse.mp inRange), rfl⟩

theorem Sound.byId (sound : run.Sound) {ack : HashAck} (member : ack ∈ run.created) :
    run.table.queryByID ack.id = some ack := by
  rcases sound.mem_created member with ⟨place, made, rfl⟩
  have below := sound.room
  have found := HashTable.nodeOfId_succ sound.unit (lt_of_le_of_lt (Nat.succ_le_of_lt made) below)
  rw [HashTable.queryByID, HashTable.ack, sound.ids place made, found, Option.map_some,
    sound.ack_eq made]

theorem Sound.ownAreas (sound : run.Sound) :
    run.created.Pairwise fun later earlier =>
      earlier.id < later.id ∧ earlier.data + run.table.dataLen ≤ later.data := by
  rw [sound.created, List.pairwise_map, List.pairwise_reverse]
  refine (List.pairwise_lt_range).imp_of_mem ?_
  intro earlier later earlierMade laterMade before
  rw [List.mem_range] at earlierMade laterMade
  rw [sound.ack_eq earlierMade, sound.ack_eq laterMade]
  have step : run.table.nodeSize * (earlier + 1) ≤ run.table.nodeSize * later :=
    Nat.mul_le_mul_left _ before
  rw [Nat.mul_add, Nat.mul_one] at step
  constructor
  · exact Nat.succ_lt_succ before
  · simp only [HashTable.dataArea, HashTable.nodeSize] at step ⊢
    omega

theorem Sound.insideUnit (sound : run.Sound) {ack : HashAck} (member : ack ∈ run.created) :
    ack.data + run.table.dataLen ≤ run.table.nodeSize * run.table.maxNodes := by
  rcases sound.mem_created member with ⟨place, made, rfl⟩
  have step : run.table.nodeSize * (place + 1) ≤ run.table.nodeSize * run.table.maxNodes :=
    Nat.mul_le_mul_left _ (le_of_lt (lt_of_le_of_lt (Nat.succ_le_of_lt made) sound.room))
  rw [Nat.mul_add, Nat.mul_one] at step
  refine le_trans (le_of_eq ?_) step
  simp only [HashTable.ack, HashTable.dataArea, HashTable.nodeSize]
  omega

theorem Sound.chain_acks (sound : run.Sound) (index : Nat) :
    ((run.inPail index).map place).map run.table.ack =
      (run.inPail index).map HashEntry.ack := by
  rw [List.map_map]
  refine List.map_congr_left ?_
  intro entry member
  exact (sound.live entry (mem_inPail.mp member).1).2.1.symm

theorem Sound.length_chain (sound : run.Sound) (index : Nat) :
    ((run.inPail index).map place).length ≤ run.table.maxNodes := by
  have inside : (run.inPail index).map place ⊆ List.range run.table.initNodes := by
    intro place member
    rcases List.mem_map.mp member with ⟨entry, entryMember, rfl⟩
    exact List.mem_range.mpr (sound.live entry (mem_inPail.mp entryMember).1).1
  have short := ((sound.chains index).nodup.subperm inside).length_le
  rw [List.length_range] at short
  exact le_trans short (le_of_lt sound.room)

theorem Sound.byKey (sound : run.Sound) (key : List UInt8) :
    run.table.queryByKey key =
      some ((run.live.find? fun entry => entry.key = key).map HashEntry.ack) := by
  unfold HashTable.queryByKey
  split
  · rename_i misfits
    have absent : run.live.find? (fun entry => decide (entry.key = key)) = none := by
      rw [List.find?_eq_none]
      intro entry member same
      apply misfits
      rw [(sound.live entry member).2.2.2, of_decide_eq_true same]
    rw [absent, Option.map_none]
  · have found := (sound.chains (run.table.pailOf key)).search
      (fun place => decide ((run.table.nodes place).key = key))
      (sound.length_chain (run.table.pailOf key))
    have same : (run.inPail (run.table.pailOf key)).find?
        (fun entry => decide ((run.table.nodes (place entry)).key = key)) =
          run.live.find? fun entry => decide (entry.key = key) := by
      rw [inPail, List.find?_filter]
      refine List.find?_congr ?_
      intro entry member
      rw [(sound.live entry member).2.2.1]
      simp only [decide_eq_true_eq, decide_eq_decide, and_iff_right_iff_imp]
      exact congrArg run.table.pailOf
    change (Links.search (run.table.pail (run.table.pailOf key)).next _ _
      (run.table.pail (run.table.pailOf key)).head).map _ = _
    rw [found, List.find?_map, Option.map_some, Option.map_map]
    refine congrArg some ((congrArg _ same).trans (Option.map_congr ?_))
    intro entry isFound
    exact (sound.live entry (List.mem_of_find?_eq_some isFound)).2.1.symm

theorem Sound.retrieves (sound : run.Sound) : run.Retrieves where
  byId := fun _ member => sound.byId member
  ownAreas := sound.ownAreas
  insideUnit := fun _ member => sound.insideUnit member
  byKey := sound.byKey
  chains := fun index => ⟨_, sound.chains index, sound.chain_acks index⟩

section Create

def pushed (run : HashRun) (key : List UInt8) : HashRun :=
  { table := run.table.chained key
    created := (run.table.chained key).ack run.table.initNodes :: run.created
    live := ⟨(run.table.chained key).ack run.table.initNodes, key⟩ :: run.live }

theorem Sound.step_create (sound : run.Sound) (fits : run.table.keyLen = key.length) :
    run.step (.createByKey key) = some (run.pushed key) := by
  simp only [step, HashTable.createByKey_eq_some fits sound.room, pushed]

theorem Sound.ack_new (sound : run.Sound) :
    (run.table.chained key).ack run.table.initNodes =
      ⟨run.table.initNodes + 1, run.table.dataArea run.table.initNodes⟩ := by
  rw [HashTable.ack, HashTable.nodes_chained_self, sound.newDataId]
  rfl

theorem Sound.place_new (sound : run.Sound) :
    place ⟨(run.table.chained key).ack run.table.initNodes, key⟩ = run.table.initNodes := by
  rw [place, sound.ack_new]
  rfl

theorem Sound.fresh (sound : run.Sound) (index : Nat) :
    run.table.initNodes ∉ (run.inPail index).map place := by
  intro member
  rcases List.mem_map.mp member with ⟨entry, entryMember, same⟩
  exact absurd (sound.live entry (mem_inPail.mp entryMember).1).1 (by omega)

theorem Sound.inPail_pushed (sound : run.Sound) (index : Nat) :
    ((run.pushed key).inPail index).map place =
      if run.table.pailOf key = index then
        run.table.initNodes :: (run.inPail index).map place
      else (run.inPail index).map place := by
  change (List.filter _ (_ :: run.live)).map place = _
  rw [List.filter_cons]
  change (if decide (run.table.pailOf key = index) = true then
    _ :: run.inPail index else run.inPail index).map place = _
  by_cases same : run.table.pailOf key = index
  · rw [if_pos (decide_eq_true same), if_pos same, List.map_cons, place, sound.ack_new]
    rfl
  · rw [if_neg (by simpa using same), if_neg same]

theorem Sound.pushed_chains (sound : run.Sound) (index : Nat) :
    ((run.table.chained key).pail index).Holds (((run.pushed key).inPail index).map place) := by
  have old := sound.chains (run.table.pailOf key)
  rw [sound.inPail_pushed]
  split
  · rename_i same
    subst index
    rw [HashTable.chained, HashTable.pail_setPail]
    exact old.pushFront (sound.fresh _)
  · rename_i different
    refine HashTable.holds_setPail (sound.chains index) (Ne.symm different) ?_
    intro place member
    apply old.pushFront_frame
    rw [List.mem_cons, not_or]
    constructor
    · rintro rfl
      exact sound.fresh index member
    · exact sound.apart different member

theorem Sound.pushed (sound : run.Sound) (fits : run.table.keyLen = key.length)
    (notLast : run.table.initNodes + 1 ≠ run.table.maxNodes) : (run.pushed key).Sound where
  unit := sound.unit
  oneUnit := sound.oneUnit
  small := sound.small
  room := lt_of_le_of_ne (Nat.succ_le_of_lt sound.room) notLast
  ids := by
    intro place made
    rcases Nat.lt_succ_iff_lt_or_eq.mp made with earlier | rfl
    · change ((run.table.chained key).nodes place).dataId = _
      rw [HashTable.nodes_chained_of_ne (Nat.ne_of_lt earlier), sound.ids place earlier]
    · exact congrArg HashAck.id sound.ack_new
  created := by
    change _ :: run.created = (List.range (run.table.initNodes + 1)).reverse.map _
    rw [List.range_succ, List.reverse_concat, List.map_cons, sound.created]
    refine congrArg _ (List.map_congr_left ?_)
    intro place member
    have earlier := List.mem_range.mp (List.mem_reverse.mp member)
    exact (HashTable.ack_chained_of_ne (Nat.ne_of_lt earlier)).symm
  live := by
    intro entry member
    rcases List.mem_cons.mp member with rfl | old
    · rw [sound.place_new]
      refine ⟨Nat.lt_succ_self _, rfl, ?_, fits⟩
      exact HashTable.nodes_chained_self.trans (by rw [sound.ack_new, sound.newDataId]; rfl)
    · rcases sound.live entry old with ⟨made, ackEq, node, keyFits⟩
      have earlier := Nat.ne_of_lt made
      refine ⟨Nat.lt_succ_of_lt made, ?_, ?_, keyFits⟩
      · exact ackEq.trans (HashTable.ack_chained_of_ne earlier).symm
      · exact (HashTable.nodes_chained_of_ne earlier).trans node
  distinct := by
    change (List.map place (_ :: run.live)).Nodup
    rw [List.map_cons, sound.place_new, List.nodup_cons]
    refine ⟨?_, sound.distinct⟩
    intro member
    rcases List.mem_map.mp member with ⟨entry, entryMember, same⟩
    exact absurd (sound.live entry entryMember).1 (by omega)
  chains := sound.pushed_chains

theorem Sound.not_retrieves_pushed (sound : run.Sound)
    (last : run.table.initNodes + 1 = run.table.maxNodes) : ¬(run.pushed key).Retrieves := by
  intro retrieves
  have found := retrieves.byId _ List.mem_cons_self
  rw [sound.ack_new, last, HashTable.queryByID] at found
  have lost : (run.table.chained key).nodeOfId (run.table.chained key).maxNodes = none :=
    HashTable.nodeOfId_last sound.unit
  change ((run.table.chained key).nodeOfId (run.table.chained key).maxNodes).map _ = _ at found
  rw [lost] at found
  cases found

end Create

section Delete

/-- The run after a deletion of a live node in a table with keys. -/
def removed (run : HashRun) (entry : HashEntry) : HashRun :=
  { run with
    table := run.table.setPail (run.table.pailOf entry.key)
      ((run.table.pail (run.table.pailOf entry.key)).unlink (place entry))
    live := run.live.filter fun other => other.ack.id ≠ entry.ack.id }

variable {entry : HashEntry}

theorem Sound.nodeOfId (sound : run.Sound) (member : entry ∈ run.live) :
    run.table.nodeOfId entry.ack.id = some (place entry) := by
  rcases sound.live entry member with ⟨made, ackEq, -, -⟩
  rw [sound.ack_eq made] at ackEq
  have idEq : entry.ack.id = place entry + 1 := by rw [ackEq]
  rw [idEq]
  exact HashTable.nodeOfId_succ sound.unit (lt_of_le_of_lt (Nat.succ_le_of_lt made) sound.room)

theorem Sound.step_delete (sound : run.Sound) (member : entry ∈ run.live)
    (keys : 0 < run.table.keyLen) :
    run.step (.deleteByID entry.ack.id) = some (run.removed entry) := by
  have present : ∃ other ∈ run.live, other.ack.id = entry.ack.id := ⟨entry, member, rfl⟩
  have index : (run.table.nodes (place entry)).pailIndex = run.table.pailOf entry.key := by
    rw [(sound.live entry member).2.2.1]
  simp only [step, if_pos present, HashTable.deleteByID, sound.nodeOfId member, Option.map_some,
    if_pos keys, index, Option.getD_some, removed]

theorem Sound.id_ne_iff (sound : run.Sound) (member : entry ∈ run.live) {other : HashEntry}
    (otherMember : other ∈ run.live) :
    other.ack.id ≠ entry.ack.id ↔ place other ≠ place entry := by
  apply not_congr
  constructor
  · intro same
    rw [place, place, same]
  · intro same
    rw [sound.eq_of_place otherMember member same]

theorem Sound.inPail_removed (sound : run.Sound) (member : entry ∈ run.live) (index : Nat) :
    ((run.removed entry).inPail index).map place =
      ((run.inPail index).map place).filter fun other => other ≠ place entry := by
  rw [List.filter_map]
  change ((run.live.filter _).filter _).map place = ((run.live.filter _).filter _).map place
  rw [List.filter_comm]
  refine congrArg _ (List.filter_congr ?_)
  intro other otherMember
  have otherLive := (List.mem_filter.mp otherMember).1
  exact decide_eq_decide.mpr (sound.id_ne_iff member otherLive)

theorem Sound.removed_chains (sound : run.Sound) (member : entry ∈ run.live) (index : Nat) :
    ((run.removed entry).table.pail index).Holds
      (((run.removed entry).inPail index).map place) := by
  have here : place entry ∈ (run.inPail (run.table.pailOf entry.key)).map place :=
    List.mem_map_of_mem (mem_inPail.mpr ⟨member, rfl⟩)
  have old := sound.chains (run.table.pailOf entry.key)
  rw [sound.inPail_removed member]
  by_cases same : index = run.table.pailOf entry.key
  · subst index
    rcases List.mem_iff_append.mp here with ⟨before, after, split⟩
    rw [split] at old ⊢
    have nodup := List.nodup_middle.mp old.nodup
    rw [List.nodup_cons, List.mem_append, not_or] at nodup
    rw [removed, HashTable.pail_setPail]
    have kept : (before ++ place entry :: after).filter (fun other => other ≠ place entry) =
        before ++ after := by
      rw [List.filter_append, List.filter_cons_of_neg (by simp)]
      rw [List.filter_eq_self.mpr, List.filter_eq_self.mpr]
      · intro other otherMember
        exact decide_eq_true fun same => nodup.1.2 (same ▸ otherMember)
      · intro other otherMember
        exact decide_eq_true fun same => nodup.1.1 (same ▸ otherMember)
    rw [kept]
    exact old.unlink
  · have absent : place entry ∉ (run.inPail index).map place := sound.apart same here
    rw [List.filter_eq_self.mpr]
    · refine HashTable.holds_setPail (sound.chains index) same ?_
      intro other otherMember
      exact old.unlink_frame here (sound.apart (Ne.symm same) otherMember)
    · intro other otherMember
      exact decide_eq_true fun same => absent (same ▸ otherMember)

theorem Sound.removed (sound : run.Sound) (member : entry ∈ run.live) :
    (run.removed entry).Sound where
  unit := sound.unit
  oneUnit := sound.oneUnit
  small := sound.small
  room := sound.room
  ids := sound.ids
  created := sound.created
  live := fun other otherMember => sound.live other (List.mem_filter.mp otherMember).1
  distinct := sound.distinct.sublist (List.filter_sublist.map place)
  chains := sound.removed_chains member

theorem Sound.not_retrieves_delete (sound : run.Sound) (member : entry ∈ run.live)
    (noKeys : run.table.keyLen = 0) (taken : run.step (.deleteByID entry.ack.id) = some next) :
    ¬next.Retrieves := by
  intro retrieves
  have present : ∃ other ∈ run.live, other.ack.id = entry.ack.id := ⟨entry, member, rfl⟩
  have keyless : ¬0 < run.table.keyLen := by omega
  simp only [step, if_pos present, HashTable.deleteByID, sound.nodeOfId member, Option.map_some,
    if_neg keyless, Option.getD_some, Option.some.injEq] at taken
  subst next
  rcases retrieves.chains (run.table.pailOf entry.key) with ⟨places, holds, spelled⟩
  cases (sound.chains (run.table.pailOf entry.key)).unique holds
  rw [sound.chain_acks] at spelled
  have stays : entry.ack ∈ (run.inPail (run.table.pailOf entry.key)).map HashEntry.ack :=
    List.mem_map_of_mem (mem_inPail.mpr ⟨member, rfl⟩)
  rw [spelled] at stays
  rcases List.mem_map.mp stays with ⟨other, otherMember, same⟩
  have otherLive := (List.mem_filter.mp (mem_inPail.mp otherMember).1).2
  exact of_decide_eq_true otherLive (congrArg HashAck.id same)

end Delete

section Runs

theorem Sound.step {action : HashAction} (sound : run.Sound) (safe : run.Safe action)
    (taken : run.step action = some next) : next.Sound := by
  cases action with
  | createByKey key =>
      by_cases fits : run.table.keyLen = key.length
      · rw [sound.step_create fits] at taken
        cases taken
        exact sound.pushed fits (safe fits)
      · simp only [HashRun.step, HashTable.createByKey_of_misfit fits] at taken
        cases taken
        exact sound
  | deleteByID id =>
      by_cases present : ∃ entry ∈ run.live, entry.ack.id = id
      · have keys := safe present
        rcases present with ⟨entry, member, rfl⟩
        rw [sound.step_delete member keys] at taken
        cases taken
        exact sound.removed member
      · simp only [HashRun.step, if_neg present] at taken
        cases taken

/-- A call is safe if and only if ids and keys still lead to their nodes after it. -/
theorem Sound.safe_iff (sound : run.Sound) (action : HashAction) :
    (∀ next, run.step action = some next → next.Retrieves) ↔ run.Safe action := by
  constructor
  · intro keeps
    cases action with
    | createByKey key =>
        intro fits last
        exact sound.not_retrieves_pushed last (keeps _ (sound.step_create fits))
    | deleteByID id =>
        rintro ⟨entry, member, rfl⟩
        by_contra noKeys
        have taken : run.step (.deleteByID entry.ack.id) = some _ :=
          if_pos ⟨entry, member, rfl⟩
        exact sound.not_retrieves_delete member (by omega) taken (keeps _ taken)
  · intro safe next taken
    exact (sound.step safe taken).retrieves

/-- In every run from a created table, ids and keys lead to their nodes in every
state if and only if the last id is never given out and nothing is deleted from a
table without keys. -/
theorem retrieval_iff (dataLen keyLen : Nat) (actions : List HashAction) :
    ((start dataLen keyLen).Retrieves ∧
      Along step (fun run action => ∀ next, run.step action = some next → next.Retrieves)
        (start dataLen keyLen) actions) ↔
      Along step Safe (start dataLen keyLen) actions := by
  have same := along_iff_along (fun run action (sound : run.Sound) => sound.safe_iff action)
    (fun run action next (sound : run.Sound) keeps taken =>
      sound.step ((sound.safe_iff action).mp keeps) taken)
    (start_sound dataLen keyLen) actions
  rw [same]
  exact and_iff_right (start_sound dataLen keyLen).retrieves

theorem Sound.runFrom_create {first : HashRun} {count : Nat} (sound : run.Sound)
    (fits : run.table.keyLen = key.length)
    (reached : runFrom HashRun.step first (List.replicate count (.createByKey key)) = some run) :
    runFrom HashRun.step first (List.replicate (count + 1) (.createByKey key)) =
      some (run.pushed key) := by
  rw [List.replicate_succ', runFrom_append, reached, Option.bind_some]
  simp only [runFrom, sound.step_create fits, Option.bind_some]

theorem runFrom_creations (dataLen : Nat) {key : List UInt8} {count : Nat}
    (below : count < baseDataNum) :
    ∃ run, runFrom step (start dataLen key.length) (List.replicate count (.createByKey key)) =
        some run ∧
      run.Sound ∧ run.table.initNodes = count ∧ run.table.keyLen = key.length ∧
        run.table.maxNodes = baseDataNum := by
  induction count with
  | zero => exact ⟨_, rfl, start_sound dataLen key.length, rfl, rfl, rfl⟩
  | succ count inductionHypothesis =>
      rcases inductionHypothesis (Nat.lt_of_succ_lt below) with
        ⟨run, reached, sound, made, fits, most⟩
      exact ⟨run.pushed key, sound.runFrom_create fits reached, sound.pushed fits (by omega),
        congrArg (· + 1) made, fits, most⟩

/-- The last of the nodes of a table is created and not retrieved by its id. -/
theorem last_id_lost :
    ∃ final, runFrom step (start 8 1) (List.replicate 16384 (.createByKey [7])) = some final ∧
      ¬final.Retrieves := by
  have below : 16383 < baseDataNum := by decide
  rcases @runFrom_creations 8 [7] 16383 below with ⟨run, reached, sound, made, fits, most⟩
  refine ⟨run.pushed [7], sound.runFrom_create fits reached, ?_⟩
  exact sound.not_retrieves_pushed (by rw [made, most]; rfl)

end Runs

end HashRun

end GraphDissect.Drivers
