import OpenRig.Runs
import OpenRig.TopologicalSort

/-!
The launch order of a rig, and the edges that may be added to it.

A rig's seats start after those that delegate to them or spawned them. The instantiator sorts the
seats that way and refuses a cycle; an edge is refused when it would close one. The sort keeps its
counts in a plain object, where a seat named `__proto__` has no count: such a rig never starts.
-/

namespace OpenRig.LaunchOrder

open OpenRig.TopologicalSort

/-! ### The sort -/

/-- An edge of a spec, by the ids of its nodes. -/
structure RigSpecEdge where
  from' : String
  to' : String
  kind : String
  deriving DecidableEq

/-- What the launch order reads of a spec: the ids of its nodes, and its edges. -/
structure RigSpec where
  nodes : List String
  edges : List RigSpecEdge

def VALID_EDGE_KINDS : List String :=
  ["delegates_to", "spawned_by", "can_observe", "collaborates_with", "escalates_to"]

def LAUNCH_DEPENDENCY_KINDS : List String := ["delegates_to", "spawned_by"]

def isSeatNameChar (c : Char) : Bool := c.isAlphanum || c == '_' || c == '-'

/-- A canonical seat address of this daemon: two names around one `@`. -/
def isEscalationTargetRef (value : String) : Bool :=
  let member := value.toList.takeWhile (· != '@')
  let rig := value.toList.drop (member.length + 1)
  value.toList.contains '@' && !member.isEmpty && !rig.isEmpty &&
    member.all isSeatNameChar && rig.all isSeatNameChar &&
    member != "human".toList && rig != "external".toList

/-- What `validate` checks of ids and edges. -/
structure RigSpec.Accepted (spec : RigSpec) : Prop where
  ids : ∀ id ∈ spec.nodes, id ≠ ""
  nodup : spec.nodes.Nodup
  named : ∀ e ∈ spec.edges, e.from' ≠ "" ∧ e.to' ≠ "" ∧ e.from' ≠ e.to'
  from' : ∀ e ∈ spec.edges, e.from' ∈ spec.nodes
  to' : ∀ e ∈ spec.edges, e.to' ∈ spec.nodes ∨
    (e.kind = "escalates_to" ∧ isEscalationTargetRef e.to' = true)
  kinds : ∀ e ∈ spec.edges, e.kind ∈ VALID_EDGE_KINDS

/-- An object used as a record of numbers: its own keys in the order they were made. -/
structure Record where
  keys : List String := []
  get? : String → Option ℤ := fun _ => none

/-- Assignment of a number. On the key `__proto__` it does nothing. -/
def Record.set (r : Record) (key : String) (value : ℤ) : Record :=
  if key = "__proto__" then r
  else
    { keys := if key ∈ r.keys then r.keys else r.keys ++ [key]
      get? := Function.update r.get? key (some value) }

/-- `(r[key] ?? 0) === 0`; the key `__proto__` reads an object. -/
def Record.isZero (r : Record) (key : String) : Bool :=
  key ≠ "__proto__" && (r.get? key).getD 0 = 0

/-- The UTF-16 units of a text, by which `sort` compares. -/
def utf16 (s : String) : List ℕ :=
  s.toList.flatMap fun c =>
    let n := c.toNat
    if n < 0x10000 then [n] else [0xD800 + (n - 0x10000) / 0x400, 0xDC00 + (n - 0x10000) % 0x400]

def sorted (l : List String) : List String := l.insertionSort fun a b => utf16 a ≤ utf16 b

/-- The arcs that constrain the order: a parent stands before its child. -/
def constraintArcs (edges : List RigSpecEdge) : List (String × String) :=
  (edges.filter (·.kind ∈ LAUNCH_DEPENDENCY_KINDS)).map fun e =>
    if e.kind = "delegates_to" then (e.from', e.to') else (e.to', e.from')

/-- The arcs whose source has an adjacency list. -/
def RigSpec.arcs (spec : RigSpec) : List (String × String) :=
  (constraintArcs spec.edges).filter (·.1 ∈ spec.nodes)

def RigSpec.inDegree (spec : RigSpec) : Record :=
  spec.arcs.foldl (fun r a => r.set a.2 ((r.get? a.2).getD 0 + 1))
    (spec.nodes.foldl (fun r id => r.set id 0) {})

variable (localeCompare : String → String → ℤ)

/-- Before the first entry that compares as later, else at the end. -/
def insertSorted (id : String) : List String → List String
  | [] => [id]
  | q :: queue => if 0 < localeCompare q id then id :: q :: queue else q :: insertSorted id queue

/-- One neighbour of the current node. -/
def relax (s : Record × List String) (neighbor : String) : Record × List String :=
  let inDegree := s.1.set neighbor ((s.1.get? neighbor).getD 1 - 1)
  if inDegree.isZero neighbor then (inDegree, insertSorted localeCompare neighbor s.2)
  else (inDegree, s.2)

/-- The queue loop; `none` is out of fuel. -/
def sortLoop (adjacency : String → List String) :
    ℕ → Record → List String → List String → Option (List String)
  | _, _, [], order => some order
  | 0, _, _ :: _, _ => none
  | fuel + 1, inDegree, current :: queue, order =>
    let s := (sorted (adjacency current)).foldl (relax localeCompare) (inDegree, queue)
    sortLoop adjacency fuel s.1 s.2 (order ++ [current])

def computeLaunchOrder (spec : RigSpec) : Option (Except String (List String)) :=
  let queue := sorted (spec.inDegree.keys.filter fun id => spec.inDegree.get? id = some 0)
  (sortLoop localeCompare (arcsFrom spec.arcs) spec.nodes.length spec.inDegree queue []).map
    fun order =>
      if order.length ≠ spec.nodes.length then
        .error ("Dependency cycle detected among nodes: " ++
          ", ".intercalate (spec.nodes.filter (· ∉ order)))
      else .ok order

/-! ### Counting -/

lemma Record.get?_set {r : Record} {key : String} (value : ℤ) (h : key ≠ "__proto__")
    (k : String) : (r.set key value).get? k = if k = key then some value else r.get? k := by
  unfold Record.set
  rw [if_neg h]
  exact Function.update_apply _ _ _ _

lemma Record.set_proto (r : Record) (value : ℤ) : r.set "__proto__" value = r := if_pos rfl

lemma Record.mem_keys_set {r : Record} {key : String} (value : ℤ) (k : String) :
    k ∈ (r.set key value).keys ↔ k ∈ r.keys ∨ (k = key ∧ key ≠ "__proto__") := by
  unfold Record.set
  split
  · rename_i h
    simp [h]
  · rename_i h
    dsimp only
    split
    · rename_i hin
      refine ⟨.inl, ?_⟩
      rintro (hk | ⟨rfl, -⟩)
      · exact hk
      · exact hin
    · simp [h]

lemma Record.nodup_set {r : Record} (h : r.keys.Nodup) (key : String) (value : ℤ) :
    (r.set key value).keys.Nodup := by
  unfold Record.set
  split
  · exact h
  · dsimp only
    split
    · exact h
    · rename_i hnot
      exact List.nodup_append.mpr ⟨h, List.nodup_singleton _, by
        rintro a ha b hb rfl
        exact hnot (List.mem_singleton.mp hb ▸ ha)⟩

/-- The counts of a record: its keys are the nodes but `__proto__`, each with its number. -/
structure Record.Counts (r : Record) (nodes : List String) (count : String → ℤ) : Prop where
  nodup : r.keys.Nodup
  keys : ∀ k, k ∈ r.keys ↔ k ∈ nodes ∧ k ≠ "__proto__"
  value : ∀ k ∈ nodes, k ≠ "__proto__" → r.get? k = some (count k)

lemma Record.Counts.set {r : Record} {nodes : List String} {count : String → ℤ}
    (h : r.Counts nodes count) {key : String} (hkey : key ∈ nodes) (value : ℤ) :
    (r.set key value).Counts nodes fun k => if k = key then value else count k where
  nodup := Record.nodup_set h.nodup key value
  keys := fun k => by
    rw [Record.mem_keys_set, h.keys]
    constructor
    · rintro (hk | ⟨rfl, hne⟩)
      · exact hk
      · exact ⟨hkey, hne⟩
    · exact .inl
  value := fun k hk hne => by
    by_cases hp : key = "__proto__"
    · subst hp
      rw [Record.set_proto, if_neg hne]
      exact h.value k hk hne
    · rw [Record.get?_set value hp]
      split
      · rfl
      · exact h.value k hk hne

lemma counts_zero (nodes : List String) :
    (nodes.foldl (fun r id => r.set id 0) ({} : Record)).Counts nodes fun _ => 0 := by
  have hfold : ∀ (ids : List String) (r : Record), r.keys.Nodup →
      (ids.foldl (fun r id => r.set id 0) r).keys.Nodup ∧
      (∀ k, k ∈ (ids.foldl (fun r id => r.set id 0) r).keys ↔
        k ∈ r.keys ∨ (k ∈ ids ∧ k ≠ "__proto__")) ∧
      ∀ k, k ≠ "__proto__" → (ids.foldl (fun r id => r.set id 0) r).get? k =
        if k ∈ ids then some 0 else r.get? k := by
    intro ids
    induction ids with
    | nil => simp
    | cons id ids ih =>
      intro r hr
      obtain ⟨h1, h2, h3⟩ := ih (r.set id 0) (Record.nodup_set hr id 0)
      refine ⟨h1, fun k => ?_, fun k hk => ?_⟩
      · rw [List.foldl_cons, h2, Record.mem_keys_set, List.mem_cons]
        by_cases hk : k = id
        · subst hk
          tauto
        · tauto
      · rw [List.foldl_cons, h3 k hk]
        by_cases hin : k ∈ ids
        · simp [hin]
        · by_cases he : k = id
          · subst he
            simp [hin, Record.get?_set 0 hk]
          · by_cases hp : id = "__proto__"
            · simp [hin, hp, Record.set_proto, hk]
            · simp [hin, he, Record.get?_set 0 hp]
  obtain ⟨h1, h2, h3⟩ := hfold nodes {} List.nodup_nil
  refine ⟨h1, fun k => by simpa using h2 k, fun k hk hne => ?_⟩
  rw [h3 k hne, if_pos hk]

variable {spec : RigSpec}

/-- The ids are distinct, and a launch edge has both its ends among them. -/
structure RigSpec.Closed (spec : RigSpec) : Prop where
  nodup : spec.nodes.Nodup
  ends : ∀ a ∈ constraintArcs spec.edges, a.1 ∈ spec.nodes ∧ a.2 ∈ spec.nodes

lemma RigSpec.Closed.arcs (h : spec.Closed) : spec.arcs = constraintArcs spec.edges :=
  List.filter_eq_self.mpr fun a ha => decide_eq_true (h.ends a ha).1

/-- **The counts are the arcs into each node.** -/
lemma inDegree_counts (h : spec.Closed) :
    spec.inDegree.Counts spec.nodes fun k => pending spec.arcs [] k := by
  have hfold : ∀ (arcs : List (String × String)) (r : Record) (count : String → ℤ),
      (∀ a ∈ arcs, a.2 ∈ spec.nodes) → r.Counts spec.nodes count →
      (arcs.foldl (fun r a => r.set a.2 ((r.get? a.2).getD 0 + 1)) r).Counts spec.nodes
        fun k => count k + pending arcs [] k := by
    intro arcs
    induction arcs with
    | nil =>
      intro r count _ hr
      simpa [pending] using hr
    | cons a arcs ih =>
      intro r count hends hr
      have ha := hends a List.mem_cons_self
      have hstep := ih _ _ (fun b hb => hends b (List.mem_cons_of_mem _ hb))
        (hr.set ha ((r.get? a.2).getD 0 + 1))
      refine ⟨hstep.nodup, hstep.keys, fun k hk hne => ?_⟩
      rw [List.foldl_cons, hstep.value k hk hne]
      by_cases hka : k = a.2
      · subst hka
        simp only [if_true, hr.value _ hk hne, Option.getD_some, pending, List.countP_cons]
        simp
        omega
      · simp [hka, pending, Ne.symm hka]
  have hends : ∀ a ∈ spec.arcs, a.2 ∈ spec.nodes := by
    intro a ha
    exact (h.ends a (h.arcs ▸ ha)).2
  have hcounts := hfold spec.arcs _ _ hends (counts_zero spec.nodes)
  exact ⟨hcounts.nodup, hcounts.keys, fun k hk hne => by
    rw [RigSpec.inDegree, hcounts.value k hk hne, zero_add]⟩

/-! ### The loop -/

lemma insertSorted_perm (id : String) (queue : List String) :
    (insertSorted localeCompare id queue).Perm (id :: queue) := by
  induction queue with
  | nil => exact .refl _
  | cons q queue ih =>
    rw [insertSorted]
    split
    · exact .refl _
    · exact (ih.cons q).trans (.swap id q queue)

/-- The neighbours of a node, one after the other: each takes one off its count, and those that come
to nothing join the queue. -/
lemma relax_neighbors {nodes : List String} (ns : List String) (r : Record) (queue : List String)
    (count : String → ℤ) (hr : r.Counts nodes count) (hnodes : ∀ k ∈ ns, k ∈ nodes)
    (hle : ∀ k, (ns.count k : ℤ) ≤ count k) (hqueue : queue.Nodup)
    (hapart : ∀ k ∈ ns, k ∉ queue) :
    (ns.foldl (relax localeCompare) (r, queue)).1.Counts nodes (fun k => count k - ns.count k) ∧
      (ns.foldl (relax localeCompare) (r, queue)).2.Nodup ∧
      ∀ x, x ∈ (ns.foldl (relax localeCompare) (r, queue)).2 ↔
        x ∈ queue ∨ (x ∈ ns ∧ x ≠ "__proto__" ∧ count x = ns.count x) := by
  induction ns generalizing r queue count with
  | nil => simpa using ⟨hr, hqueue⟩
  | cons n ns ih =>
    have hn := hnodes n List.mem_cons_self
    have hcount : ∀ k, ((n :: ns).count k : ℤ) = ns.count k + if k = n then 1 else 0 := by
      intro k
      rw [List.count_cons]
      by_cases hk : k = n
      · simp [hk]
      · simp [hk, Ne.symm hk]
    -- One neighbour: its own count goes down, and it joins the queue when that was its last.
    set value := (r.get? n).getD 1 - 1
    have hvalue : n ≠ "__proto__" → value = count n - 1 := fun hp => by
      rw [show value = (r.get? n).getD 1 - 1 from rfl, hr.value n hn hp, Option.getD_some]
    have hset : (r.set n value).Counts nodes fun k => if k = n then count n - 1 else count k := by
      refine ⟨(hr.set hn value).nodup, (hr.set hn value).keys, fun k hk hne => ?_⟩
      rw [(hr.set hn value).value k hk hne]
      by_cases hkn : k = n
      · simp [hkn, hvalue (hkn ▸ hne)]
      · simp [hkn]
    have hzero : (r.set n value).isZero n = true ↔ n ≠ "__proto__" ∧ count n = 1 := by
      unfold Record.isZero
      rw [Bool.and_eq_true, decide_eq_true_eq, decide_eq_true_eq]
      refine and_congr_right fun hp => ?_
      rw [hset.value n hn hp, if_pos rfl, Option.getD_some]
      omega
    have hle' : ∀ k, (ns.count k : ℤ) ≤ if k = n then count n - 1 else count k := by
      intro k
      have h := hle k
      rw [hcount k] at h
      split
      · rename_i hk
        subst hk
        simp only [if_true] at h
        omega
      · rename_i hk
        simpa [hk] using h
    have hmono : ∀ k ∈ ns, k ∈ nodes := fun k hk => hnodes k (List.mem_cons_of_mem _ hk)
    have hcounts : ∀ k, (if k = n then count n - 1 else count k) - (ns.count k : ℤ) =
        count k - (n :: ns).count k := by
      intro k
      rw [hcount k]
      by_cases hk : k = n
      · subst hk
        simp
        omega
      · simp [hk]
    by_cases hin : (r.set n value).isZero n = true
    · obtain ⟨hp, hone⟩ := hzero.mp hin
      have hnot : n ∉ ns := by
        intro hmem
        have h1 := hle' n
        have h2 := List.count_pos_iff.mpr hmem
        rw [if_pos rfl, hone] at h1
        omega
      have hstep : relax localeCompare (r, queue) n =
          (r.set n value, insertSorted localeCompare n queue) := if_pos hin
      have hperm : (insertSorted localeCompare n queue).Perm (n :: queue) :=
        insertSorted_perm localeCompare n queue
      obtain ⟨h1, h2, h3⟩ := ih (r.set n value) (insertSorted localeCompare n queue) _ hset hmono
        hle' (hperm.nodup_iff.mpr (List.nodup_cons.mpr ⟨hapart n List.mem_cons_self, hqueue⟩))
        (fun k hk hmem => by
          rcases List.mem_cons.mp (hperm.mem_iff.mp hmem) with rfl | hmem
          · exact hnot hk
          · exact hapart k (List.mem_cons_of_mem _ hk) hmem)
      rw [List.foldl_cons, hstep]
      refine ⟨⟨h1.nodup, h1.keys, fun k hk hne => by rw [h1.value k hk hne, hcounts k]⟩, h2,
        fun x => ?_⟩
      rw [h3, hperm.mem_iff, List.mem_cons, List.mem_cons]
      by_cases hx : x = n
      · subst hx
        have hzero' : ns.count x = 0 := List.count_eq_zero.mpr hnot
        have hall : count x = (x :: ns).count x := by
          rw [hcount x, hzero', hone]
          simp
        simp [hp, hall]
      · have hc := hcount x
        simp only [hx, if_false, add_zero] at hc
        simp [hx, hc]
    · have hstep : relax localeCompare (r, queue) n = (r.set n value, queue) := if_neg hin
      obtain ⟨h1, h2, h3⟩ := ih (r.set n value) queue _ hset hmono hle' hqueue
        (fun k hk => hapart k (List.mem_cons_of_mem _ hk))
      rw [List.foldl_cons, hstep]
      refine ⟨⟨h1.nodup, h1.keys, fun k hk hne => by rw [h1.value k hk hne, hcounts k]⟩, h2,
        fun x => ?_⟩
      rw [h3, List.mem_cons]
      refine or_congr_right ?_
      by_cases hx : x = n
      · subst hx
        have hc := hcount x
        simp only [if_true] at hc
        constructor
        · rintro ⟨-, hp, he⟩
          refine ⟨.inl rfl, hp, ?_⟩
          rw [if_pos rfl] at he
          omega
        · rintro ⟨-, hp, he⟩
          have hne : count x ≠ 1 := fun hone => hin (hzero.mpr ⟨hp, hone⟩)
          refine ⟨?_, hp, ?_⟩
          · refine List.count_pos_iff.mp ?_
            omega
          · rw [if_pos rfl]
            omega
      · have hc := hcount x
        simp only [hx, if_false, add_zero] at hc
        simp [hx, hc]

def RigSpec.counted (spec : RigSpec) : List String := spec.nodes.filter (· ≠ "__proto__")

lemma mem_counted {k : String} : k ∈ spec.counted ↔ k ∈ spec.nodes ∧ k ≠ "__proto__" := by
  rw [RigSpec.counted, List.mem_filter, decide_eq_true_eq]

lemma mem_arcsFrom {arcs : List (String × String)} {x y : String} :
    y ∈ arcsFrom arcs x ↔ (x, y) ∈ arcs := by
  simp [arcsFrom]

lemma sorting_turn (h : spec.Closed) {current : String} {queue order : List String} {r : Record}
    (hs : Sorting spec.arcs spec.counted order (current :: queue))
    (hr : r.Counts spec.nodes fun k => pending spec.arcs order k) :
    let s := (sorted (arcsFrom spec.arcs current)).foldl (relax localeCompare) (r, queue)
    Sorting spec.arcs spec.counted (order ++ [current]) s.2 ∧
      s.1.Counts spec.nodes fun k => pending spec.arcs (order ++ [current]) k := by
  have hc : current ∉ order := fun hin =>
    (List.nodup_append.mp hs.nodup).2.2 current hin current List.mem_cons_self rfl
  have hperm : (sorted (arcsFrom spec.arcs current)).Perm (arcsFrom spec.arcs current) :=
    List.perm_insertionSort _ _
  have hcount : ∀ k, ((sorted (arcsFrom spec.arcs current)).count k : ℤ) =
      pending spec.arcs order k - pending spec.arcs (order ++ [current]) k := by
    intro k
    have hsplit : pending spec.arcs (order ++ [current]) k + _ = _ := pending_snoc hc k
    rw [hperm.count_eq]
    omega
  have hnodes : ∀ k ∈ sorted (arcsFrom spec.arcs current), k ∈ spec.nodes := by
    intro k hk
    exact (h.ends _ (h.arcs ▸ mem_arcsFrom.mp (hperm.mem_iff.mp hk))).2
  have hheld : ∀ k ∈ sorted (arcsFrom spec.arcs current), pending spec.arcs order k ≠ 0 := by
    intro k hk hzero
    exact hc (pending_eq_zero.mp hzero current (mem_arcsFrom.mp (hperm.mem_iff.mp hk)))
  have hapart : ∀ k ∈ sorted (arcsFrom spec.arcs current), k ∉ queue := by
    intro k hk hin
    have hmem : k ∈ order ++ current :: queue :=
      List.mem_append_right _ (List.mem_cons_of_mem _ hin)
    exact hheld k hk ((hs.ready k (hs.within k hmem)).mp hmem)
  have hqueue : queue.Nodup := (List.nodup_cons.mp (List.nodup_append.mp hs.nodup).2.1).2
  obtain ⟨h1, h2, h3⟩ := relax_neighbors localeCompare
    (sorted (arcsFrom spec.arcs current)) r queue _ hr hnodes
    (fun k => by rw [hcount k]; omega) hqueue hapart
  refine ⟨hs.step h2 fun x => ?_, ⟨h1.nodup, h1.keys, fun k hk hne => ?_⟩⟩
  · rw [h3, mem_counted]
    refine or_congr_right ⟨?_, ?_⟩
    · rintro ⟨hx, hp, he⟩
      rw [hcount x] at he
      exact ⟨⟨hnodes x hx, hp⟩, hheld x hx, by omega⟩
    · rintro ⟨⟨-, hp⟩, hne, hzero⟩
      have hx := hcount x
      rw [hzero] at hx
      exact ⟨List.count_pos_iff.mp (by omega), hp, by omega⟩
  · rw [h1.value k hk hne, hcount k]
    exact congrArg some (by omega)

/-- **The loop ends**, with fuel for every counted node. -/
lemma sortLoop_spec (h : spec.Closed) (fuel : ℕ) (r : Record) (queue order : List String)
    (hs : Sorting spec.arcs spec.counted order queue)
    (hr : r.Counts spec.nodes fun k => pending spec.arcs order k)
    (hfuel : spec.counted.length ≤ order.length + fuel) :
    ∃ order', sortLoop localeCompare (arcsFrom spec.arcs) fuel r queue order = some order' ∧
      Sorting spec.arcs spec.counted order' [] := by
  induction fuel generalizing r queue order with
  | zero =>
    cases queue with
    | nil => exact ⟨order, rfl, hs⟩
    | cons current queue =>
      have hlen := Digraph.length_le_of_nodup hs.nodup hs.within
      simp only [List.length_append, List.length_cons] at hlen
      omega
  | succ fuel ih =>
    cases queue with
    | nil => exact ⟨order, rfl, hs⟩
    | cons current queue =>
      obtain ⟨hnext, hcounts⟩ := sorting_turn localeCompare h hs hr
      refine ih _ _ _ hnext hcounts ?_
      rw [List.length_append, List.length_singleton]
      omega

lemma computeLaunchOrder_spec (h : spec.Closed) :
    ∃ order, Sorting spec.arcs spec.counted order [] ∧ computeLaunchOrder localeCompare spec =
      some (if order.length ≠ spec.nodes.length then
        .error ("Dependency cycle detected among nodes: " ++
          ", ".intercalate (spec.nodes.filter (· ∉ order)))
      else .ok order) := by
  have hcounts := inDegree_counts h
  set free := spec.inDegree.keys.filter fun id => spec.inDegree.get? id = some 0 with hfree
  have hperm : (sorted free).Perm free := List.perm_insertionSort _ _
  have hstart : Sorting spec.arcs spec.counted [] (sorted free) := by
    refine .start (hperm.nodup_iff.mpr (hcounts.nodup.filter _)) fun x => ?_
    rw [hperm.mem_iff, hfree, List.mem_filter, hcounts.keys, decide_eq_true_eq, mem_counted]
    refine and_congr_right fun hx => ?_
    rw [hcounts.value x hx.1 hx.2, Option.some.injEq]
    omega
  have hfuel : spec.counted.length ≤ ([] : List String).length + spec.nodes.length := by
    rw [List.length_nil, Nat.zero_add]
    exact List.length_filter_le _ _
  obtain ⟨order, hrun, hsorted⟩ := sortLoop_spec localeCompare h
    spec.nodes.length spec.inDegree (sorted free) [] hstart hcounts hfuel
  exact ⟨order, hsorted, by rw [computeLaunchOrder, hrun, Option.map_some]⟩

def Fails (spec : RigSpec) : Prop :=
  ∃ message, computeLaunchOrder localeCompare spec = some (.error message)

/-- **An order that is returned** has every node once, each after those it waits for. -/
lemma order_respects (h : spec.Closed) {order : List String}
    (hok : computeLaunchOrder localeCompare spec = some (.ok order)) :
    order.Perm spec.nodes ∧ Respects (constraintArcs spec.edges) order := by
  obtain ⟨order', hsorted, hresult⟩ := computeLaunchOrder_spec localeCompare h
  rw [hresult] at hok
  split at hok
  · cases hok
  rename_i hlen
  cases hok
  have hnodup := hsorted.nodup
  rw [List.append_nil] at hnodup
  have hsub : ∀ x ∈ order, x ∈ spec.nodes := fun x hx =>
    (mem_counted.mp (hsorted.within x (by rwa [List.append_nil]))).1
  have hperm : order.Perm spec.nodes :=
    (hnodup.subperm hsub).perm_of_length_le (not_not.mp hlen).ge
  refine ⟨hperm, fun a ha => ?_⟩
  rw [← h.arcs] at ha
  exact hsorted.respects a ha (hperm.mem_iff.mpr (h.ends a (h.arcs ▸ ha)).2)

/-- **The sort fails** exactly on a cycle, or where a node is named `__proto__`. -/
lemma fails_iff (h : spec.Closed) : Fails localeCompare spec ↔
    "__proto__" ∈ spec.nodes ∨ ¬ Acyclic (constraintArcs spec.edges) := by
  obtain ⟨order, hsorted, hresult⟩ := computeLaunchOrder_spec localeCompare h
  have hfails : Fails localeCompare spec ↔ order.length ≠ spec.nodes.length := by
    unfold Fails
    rw [hresult]
    split
    · rename_i hne
      exact ⟨fun _ => hne, fun _ => ⟨_, rfl⟩⟩
    · rename_i hne
      refine ⟨?_, fun hlen => absurd hlen hne⟩
      rintro ⟨message, hm⟩
      cases hm
  have hnodup := hsorted.nodup
  rw [List.append_nil] at hnodup
  have hcounted : spec.counted.Nodup := h.nodup.filter _
  have hle : order.length ≤ spec.counted.length :=
    Digraph.length_le_of_nodup hnodup fun x hx =>
      hsorted.within x (by rwa [List.append_nil])
  rw [hfails]
  by_cases hp : "__proto__" ∈ spec.nodes
  · have hfewer : spec.counted.length < spec.nodes.length :=
      List.length_filter_lt_length_iff_exists.mpr ⟨_, hp, by simp⟩
    exact ⟨fun _ => .inl hp, fun _ => by omega⟩
  · have hall : spec.counted = spec.nodes := by
      refine List.filter_eq_self.mpr fun k hk => decide_eq_true ?_
      rintro rfl
      exact hp hk
    have hiff : order.length = spec.nodes.length ↔ Acyclic (constraintArcs spec.edges) := by
      rw [← h.arcs, ← hsorted.complete_iff fun a ha => hall ▸ h.ends a (h.arcs ▸ ha), hall]
      constructor
      · intro hlen x hx
        have hperm : order.Perm spec.nodes := (hnodup.subperm fun x hx => hall ▸
          hsorted.within x (by rwa [List.append_nil])).perm_of_length_le hlen.ge
        exact hperm.mem_iff.mpr hx
      · intro hmem
        exact (hsorted.perm hcounted (hall.symm ▸ hmem)).length_eq.trans (by rw [hall])
    rw [ne_eq, hiff]
    simp [hp]

lemma RigSpec.Accepted.closed (h : spec.Accepted) : spec.Closed where
  nodup := h.nodup
  ends := fun a ha => by
    obtain ⟨e, he, rfl⟩ := List.mem_map.mp ha
    obtain ⟨he, hkind⟩ := List.mem_filter.mp he
    have hkind : e.kind ∈ LAUNCH_DEPENDENCY_KINDS := decide_eq_true_eq.mp hkind
    have hfrom := h.from' e he
    have hto : e.to' ∈ spec.nodes := by
      rcases h.to' e he with hto | ⟨hk, -⟩
      · exact hto
      · rw [hk] at hkind
        exact absurd hkind (by decide)
    split
    · exact ⟨hfrom, hto⟩
    · exact ⟨hto, hfrom⟩

/-! ### The stored rig -/

structure RigNode where
  id : String
  logicalId : String
  deriving DecidableEq

structure Edge where
  id : String
  sourceId : String
  /-- A node of the rig, or the address that `targetRef` holds. -/
  targetId : String
  targetRef : Option String := none
  kind : String
  deriving DecidableEq

/-- The ends of an edge stand in the rig; only an escalation may name a seat elsewhere. -/
structure Placed (nodes : List RigNode) (e : Edge) : Prop where
  source : e.sourceId ∈ nodes.map (·.id)
  target : e.targetRef = none → e.targetId ∈ nodes.map (·.id)
  ref : e.targetRef ≠ none → e.kind = "escalates_to"

structure Rig where
  nodes : List RigNode
  edges : List Edge
  ids : (nodes.map (·.id)).Nodup
  logicalIds : (nodes.map (·.logicalId)).Nodup
  placed : ∀ e ∈ edges, Placed nodes e

/-- The exporter's map. The rig's own invariant leaves no end unmapped. -/
def logicalOf (nodes : List RigNode) (id : String) : String :=
  ((nodes.find? (·.id = id)).map (·.logicalId)).getD id

def exportEdge (nodes : List RigNode) (e : Edge) : RigSpecEdge where
  from' := logicalOf nodes e.sourceId
  to' := e.targetRef.getD (logicalOf nodes e.targetId)
  kind := e.kind

/-- The spec of a rig's nodes and of these edges, as the exporter writes it. -/
def specOf (nodes : List RigNode) (edges : List Edge) : RigSpec where
  nodes := nodes.map (·.logicalId)
  edges := edges.map (exportEdge nodes)

def launchArc (e : Edge) : String × String :=
  if e.kind = "delegates_to" then (e.sourceId, e.targetId) else (e.targetId, e.sourceId)

def launchArcs (edges : List Edge) : List (String × String) :=
  (edges.filter (·.kind ∈ LAUNCH_DEPENDENCY_KINDS)).map launchArc

/-- A node's arcs are followed at most once. -/
def searchFuel (arcs : List (String × String)) (start : String) : ℕ :=
  1 + ((start :: arcs.map (·.2)).map fun x => (arcsFrom arcs x).length).sum

/-- Whether the candidate's target comes to its source already; `none` is out of fuel. -/
def createsLaunchCycle (edges : List Edge) (candidate : Edge) : Option Bool :=
  let arcs := launchArcs edges
  let (first, next) := launchArc candidate
  seek (arcsFrom arcs) first (searchFuel arcs next) [next] []

structure EdgeInput where
  from' : String
  to' : String
  kind : String
  plan : Bool := false

inductive EdgeOutcome where
  | invalidKind
  | nodeNotFound
  | edgeCycle
  | edgeNotFound
  | present (id : String)
  | wouldAdd
  | added (id : String)
  | wouldRemove
  | removed
  deriving DecidableEq

def Rig.nodeOf (r : Rig) (logicalId : String) : Option RigNode :=
  r.nodes.find? (·.logicalId = logicalId)

/-- The edge that a request names. -/
def Rig.candidate (r : Rig) (input : EdgeInput) (id : String) : Except EdgeOutcome Edge :=
  if input.kind ∉ VALID_EDGE_KINDS then .error .invalidKind
  else
    match r.nodeOf input.from', r.nodeOf input.to' with
    | some source, some target =>
      .ok { id, sourceId := source.id, targetId := target.id, kind := input.kind,
            targetRef := if input.kind = "escalates_to" ∧ isEscalationTargetRef target.id = true
              then some target.id else none }
    | some source, none =>
      if input.kind = "escalates_to" ∧ isEscalationTargetRef input.to' = true then
        .ok { id, sourceId := source.id, targetId := input.to', kind := input.kind,
              targetRef := some input.to' }
      else .error .nodeNotFound
    | none, _ => .error .nodeNotFound

lemma Rig.candidate_placed {r : Rig} {input : EdgeInput} {id : String} {e : Edge}
    (h : r.candidate input id = .ok e) : Placed r.nodes e := by
  have hin : ∀ {logicalId node}, r.nodeOf logicalId = some node → node.id ∈ r.nodes.map (·.id) :=
    fun hn => List.mem_map.mpr ⟨_, List.mem_of_find?_eq_some hn, rfl⟩
  unfold Rig.candidate at h
  split at h
  · cases h
  · split at h
    · rename_i source target hs ht
      cases h
      refine ⟨hin hs, fun _ => hin ht, fun href => ?_⟩
      dsimp only at href
      split at href
      · rename_i hk
        exact hk.1
      · exact absurd rfl href
    · rename_i source hs ht
      split at h
      · rename_i hk
        cases h
        exact ⟨hin hs, (fun hnone => nomatch hnone), fun _ => hk.1⟩
      · cases h
    · cases h

def Rig.addEdge (r : Rig) (e : Edge) (h : Placed r.nodes e) : Rig :=
  { r with
    edges := r.edges ++ [e]
    placed := fun e' he' => by
      rcases List.mem_append.mp he' with he' | he'
      · exact r.placed e' he'
      · exact List.mem_singleton.mp he' ▸ h }

/-- `addRigEdge`, with the id that a new edge gets. -/
def addRigEdge (r : Rig) (input : EdgeInput) (newId : String) : Option (EdgeOutcome × Rig) :=
  match h : r.candidate input newId with
  | .error outcome => some (outcome, r)
  | .ok e =>
    match r.edges.find? fun e' =>
        e'.sourceId = e.sourceId && e'.targetId = e.targetId && e'.kind = e.kind with
    | some existing => some (.present existing.id, r)
    | none =>
      let accept := if input.plan then (.wouldAdd, r) else
        (EdgeOutcome.added newId, r.addEdge e (Rig.candidate_placed h))
      if input.kind ∈ LAUNCH_DEPENDENCY_KINDS then
        (createsLaunchCycle r.edges e).map fun cycle =>
          if cycle then (.edgeCycle, r) else accept
      else some accept

def removeRigEdge (r : Rig) (edgeId : String) (plan : Bool) : EdgeOutcome × Rig :=
  if r.edges.any (·.id = edgeId) then
    if plan then (.wouldRemove, r)
    else (.removed, { r with
      edges := r.edges.filter (·.id ≠ edgeId)
      placed := fun e he => r.placed e (List.mem_filter.mp he).1 })
  else (.edgeNotFound, r)

inductive EdgeOp where
  | add (input : EdgeInput) (newId : String)
  | remove (edgeId : String) (plan : Bool)

def edgeStep (r : Rig) : EdgeOp → Option Rig
  | .add input newId => (addRigEdge r input newId).map (·.2)
  | .remove edgeId plan => some (removeRigEdge r edgeId plan).2

/-! ### A rig and its spec -/

lemma logicalOf_eq {nodes : List RigNode} (hids : (nodes.map (·.id)).Nodup) {n : RigNode}
    (hn : n ∈ nodes) : logicalOf nodes n.id = n.logicalId := by
  unfold logicalOf
  cases h : nodes.find? (·.id = n.id) with
  | none => simpa using List.find?_eq_none.mp h n hn
  | some m =>
    have hid : m.id = n.id := by simpa using List.find?_some h
    rw [List.inj_on_of_nodup_map hids (List.mem_of_find?_eq_some h) hn hid]
    rfl

lemma launchArcs_ends {nodes : List RigNode} {edges : List Edge}
    (hplaced : ∀ e ∈ edges, Placed nodes e) {a : String × String} (ha : a ∈ launchArcs edges) :
    a.1 ∈ nodes.map (·.id) ∧ a.2 ∈ nodes.map (·.id) := by
  obtain ⟨e, he, rfl⟩ := List.mem_map.mp ha
  obtain ⟨he, hkind⟩ := List.mem_filter.mp he
  have hsource := (hplaced e he).source
  have htarget : e.targetId ∈ nodes.map (·.id) := by
    refine (hplaced e he).target ?_
    by_contra href
    rw [(hplaced e he).ref href] at hkind
    exact absurd hkind (by decide)
  unfold launchArc
  split
  · exact ⟨hsource, htarget⟩
  · exact ⟨htarget, hsource⟩

lemma constraintArcs_specOf {nodes : List RigNode} {edges : List Edge}
    (hplaced : ∀ e ∈ edges, Placed nodes e) :
    constraintArcs (specOf nodes edges).edges =
      (launchArcs edges).map fun a => (logicalOf nodes a.1, logicalOf nodes a.2) := by
  unfold constraintArcs launchArcs specOf
  dsimp only
  rw [List.filter_map, List.map_map, List.map_map]
  refine List.map_congr_left fun e he => ?_
  obtain ⟨he, hkind⟩ := List.mem_filter.mp he
  have hkind : e.kind ∈ LAUNCH_DEPENDENCY_KINDS := decide_eq_true_eq.mp hkind
  have href : e.targetRef = none := by
    by_contra href
    rw [(hplaced e he).ref href] at hkind
    exact absurd hkind (by decide)
  simp only [Function.comp_apply, exportEdge, launchArc, href, Option.getD_none]
  split
  · rfl
  · rfl

lemma logicalOf_inj {nodes : List RigNode} (hids : (nodes.map (·.id)).Nodup)
    (hlogical : (nodes.map (·.logicalId)).Nodup) :
    ∀ x ∈ nodes.map (·.id), ∀ y ∈ nodes.map (·.id),
      logicalOf nodes x = logicalOf nodes y → x = y := by
  intro x hx y hy h
  obtain ⟨n, hn, rfl⟩ := List.mem_map.mp hx
  obtain ⟨m, hm, rfl⟩ := List.mem_map.mp hy
  rw [logicalOf_eq hids hn, logicalOf_eq hids hm] at h
  rw [List.inj_on_of_nodup_map hlogical hn hm h]

lemma specOf_closed {nodes : List RigNode} {edges : List Edge}
    (hids : (nodes.map (·.id)).Nodup) (hlogical : (nodes.map (·.logicalId)).Nodup)
    (hplaced : ∀ e ∈ edges, Placed nodes e) : (specOf nodes edges).Closed where
  nodup := hlogical
  ends := fun a ha => by
    rw [constraintArcs_specOf hplaced] at ha
    obtain ⟨b, hb, rfl⟩ := List.mem_map.mp ha
    have hends := launchArcs_ends hplaced hb
    have hin : ∀ x ∈ nodes.map (·.id), logicalOf nodes x ∈ nodes.map (·.logicalId) := by
      intro x hx
      obtain ⟨n, hn, rfl⟩ := List.mem_map.mp hx
      rw [logicalOf_eq hids hn]
      exact List.mem_map.mpr ⟨n, hn, rfl⟩
    exact ⟨hin _ hends.1, hin _ hends.2⟩

lemma rig_fails_iff {nodes : List RigNode} {edges : List Edge}
    (hids : (nodes.map (·.id)).Nodup) (hlogical : (nodes.map (·.logicalId)).Nodup)
    (hplaced : ∀ e ∈ edges, Placed nodes e) : Fails localeCompare (specOf nodes edges) ↔
      "__proto__" ∈ nodes.map (·.logicalId) ∨ ¬ Acyclic (launchArcs edges) := by
  rw [fails_iff localeCompare (specOf_closed hids hlogical hplaced), constraintArcs_specOf hplaced,
    acyclic_map_iff (logicalOf_inj hids hlogical) fun a ha => launchArcs_ends hplaced ha]
  rfl

lemma launchArcs_snoc (edges : List Edge) (e : Edge) : launchArcs (edges ++ [e]) =
    launchArcs edges ++ if e.kind ∈ LAUNCH_DEPENDENCY_KINDS then [launchArc e] else [] := by
  unfold launchArcs
  rw [List.filter_append, List.map_append]
  by_cases h : e.kind ∈ LAUNCH_DEPENDENCY_KINDS
  · simp [h]
  · simp [h]

/-- **The edge-time search agrees with the sort**: it finds a cycle exactly when the arcs with the
candidate have one. -/
lemma createsLaunchCycle_iff {edges : List Edge} (h : Acyclic (launchArcs edges)) {e : Edge}
    (hkind : e.kind ∈ LAUNCH_DEPENDENCY_KINDS) :
    (createsLaunchCycle edges e = some true ↔ ¬ Acyclic (launchArcs (edges ++ [e]))) ∧
      (createsLaunchCycle edges e).isSome := by
  set arcs := launchArcs edges with harcs
  have hclosed : ∀ x ∈ (launchArc e).2 :: arcs.map (·.2), ∀ y ∈ arcsFrom arcs x,
      y ∈ (launchArc e).2 :: arcs.map (·.2) := by
    intro x _ y hy
    exact List.mem_cons_of_mem _ (List.mem_map.mpr ⟨(x, y), mem_arcsFrom.mp hy, rfl⟩)
  have hseek := seek_iff (launchArc e).1 hclosed List.mem_cons_self (le_refl _)
  have hedge : Digraph.Edge (arcsFrom arcs) = Arc arcs :=
    funext₂ fun x y => propext mem_arcsFrom
  rw [hedge] at hseek
  have hnew : ∀ a, a ∈ launchArcs (edges ++ [e]) ↔
      a ∈ ((launchArc e).1, (launchArc e).2) :: arcs := by
    intro a
    rw [launchArcs_snoc, if_pos hkind, List.mem_append, List.mem_singleton, List.mem_cons, or_comm]
  rw [acyclic_congr hnew, acyclic_cons_iff h, not_not]
  exact hseek

/-! ### Edits -/

/-- What an addition does: it leaves the rig, or it appends the candidate, and then the arcs still
have no cycle. -/
lemma addRigEdge_spec {r : Rig} (h : Acyclic (launchArcs r.edges)) (input : EdgeInput)
    (newId : String) : ∃ outcome r', addRigEdge r input newId = some (outcome, r') ∧
      r'.nodes = r.nodes ∧ Acyclic (launchArcs r'.edges) ∧
      ∀ e, r.candidate input newId = .ok e →
        (outcome = .edgeCycle ↔ ¬ Acyclic (launchArcs (r.edges ++ [e]))) := by
  unfold addRigEdge
  split
  · rename_i outcome hc
    exact ⟨outcome, r, rfl, rfl, h, fun e he => by rw [hc] at he; cases he⟩
  · rename_i e hc
    have hkind : e.kind = input.kind := by
      unfold Rig.candidate at hc
      split at hc
      · cases hc
      · split at hc
        · cases hc
          rfl
        · split at hc
          · cases hc
            rfl
          · cases hc
        · cases hc
    split
    · rename_i existing hfound
      refine ⟨_, r, rfl, rfl, h, fun e' he' => ?_⟩
      obtain rfl : e = e' := Except.ok.inj (hc.symm.trans he')
      -- The same edge again adds no arc.
      have hsame := List.find?_some hfound
      simp only [Bool.and_eq_true, decide_eq_true_eq] at hsame
      obtain ⟨⟨hsource, htarget⟩, hk⟩ := hsame
      have harc : launchArc existing = launchArc e := by
        unfold launchArc
        rw [hsource, htarget, hk]
      have hstill : Acyclic (launchArcs (r.edges ++ [e])) := by
        refine h.subset fun a ha => ?_
        rw [launchArcs_snoc, List.mem_append] at ha
        rcases ha with ha | ha
        · exact ha
        · split at ha
          · rename_i hlaunch
            rw [List.mem_singleton.mp ha, ← harc]
            exact List.mem_map.mpr ⟨existing, List.mem_filter.mpr
              ⟨List.mem_of_find?_eq_some hfound, decide_eq_true (hk ▸ hlaunch)⟩, rfl⟩
          · cases ha
      simp [hstill]
    · dsimp only
      have haccept : Acyclic (launchArcs (r.edges ++ [e])) → ∃ outcome r',
          (if input.plan then (EdgeOutcome.wouldAdd, r) else
            (EdgeOutcome.added newId, r.addEdge e (Rig.candidate_placed hc))) = (outcome, r') ∧
          r'.nodes = r.nodes ∧ Acyclic (launchArcs r'.edges) ∧ outcome ≠ .edgeCycle := by
        intro hnew
        split
        · exact ⟨_, _, rfl, rfl, h, by decide⟩
        · exact ⟨_, _, rfl, rfl, hnew, fun he => nomatch he⟩
      split
      · rename_i hlaunch
        obtain ⟨hiff, hsome⟩ := createsLaunchCycle_iff h (hkind ▸ hlaunch)
        obtain ⟨cycle, hcycle⟩ := Option.isSome_iff_exists.mp hsome
        rw [hcycle, Option.map_some]
        cases cycle with
        | true =>
          refine ⟨.edgeCycle, r, rfl, rfl, h, fun e' he' => ?_⟩
          obtain rfl : e = e' := Except.ok.inj (hc.symm.trans he')
          exact ⟨fun _ => hiff.mp hcycle, fun _ => rfl⟩
        | false =>
          have hnew : Acyclic (launchArcs (r.edges ++ [e])) := by
            by_contra hnot
            rw [hiff.mpr hnot] at hcycle
            cases hcycle
          obtain ⟨outcome, r', heq, hnodes, hacyclic, hne⟩ := haccept hnew
          refine ⟨outcome, r', congrArg some heq, hnodes, hacyclic, fun e' he' => ?_⟩
          obtain rfl : e = e' := Except.ok.inj (hc.symm.trans he')
          exact ⟨fun he => absurd he hne, fun hnot => absurd hnew hnot⟩
      · rename_i hother
        have hnew : Acyclic (launchArcs (r.edges ++ [e])) := by
          rwa [launchArcs_snoc, if_neg (hkind ▸ hother), List.append_nil]
        obtain ⟨outcome, r', heq, hnodes, hacyclic, hne⟩ := haccept hnew
        refine ⟨outcome, r', congrArg some heq, hnodes, hacyclic, fun e' he' => ?_⟩
        obtain rfl : e = e' := Except.ok.inj (hc.symm.trans he')
        exact ⟨fun he => absurd he hne, fun hnot => absurd hnew hnot⟩

lemma edgeStep_keeps {r r' : Rig} {op : EdgeOp} (h : edgeStep r op = some r')
    (hr : Acyclic (launchArcs r.edges)) :
    r'.nodes = r.nodes ∧ Acyclic (launchArcs r'.edges) := by
  cases op with
  | add input newId =>
    obtain ⟨outcome, r'', hadd, hnodes, hacyclic, -⟩ := addRigEdge_spec hr input newId
    rw [edgeStep, hadd] at h
    cases h
    exact ⟨hnodes, hacyclic⟩
  | remove edgeId plan =>
    cases h
    unfold removeRigEdge
    split
    · split
      · exact ⟨rfl, hr⟩
      · refine ⟨rfl, hr.subset fun a ha => ?_⟩
        obtain ⟨e, he, rfl⟩ := List.mem_map.mp ha
        obtain ⟨he, hkind⟩ := List.mem_filter.mp he
        exact List.mem_map.mpr ⟨e, List.mem_filter.mpr ⟨(List.mem_filter.mp he).1, hkind⟩, rfl⟩
    · exact ⟨rfl, hr⟩

/-- Along every run of edits the rig launches, and an edge is refused as cyclic exactly when the
sort would fail with it. -/
def Agrees (r : Rig) : Prop :=
  ∀ ls r', Runs.Path (fun r l r' => edgeStep r l = some r') r ls r' →
    ¬ Fails localeCompare (specOf r'.nodes r'.edges) ∧
    ∀ input newId e, r'.candidate input newId = .ok e →
      ∃ outcome r'', addRigEdge r' input newId = some (outcome, r'') ∧
        (outcome = .edgeCycle ↔ Fails localeCompare (specOf r'.nodes (r'.edges ++ [e])))

/-- **Launch order and edge admission.** The sort of an accepted spec ends; an order it returns has
every node once, each after those it waits for. It fails exactly on a cycle, unless a node without
one is named `__proto__`. And from a rig without launch cycles, every run of edits keeps it
launchable and refuses exactly the edges that would stop it, unless a seat is named `__proto__`. -/
theorem launch_order (spec : RigSpec) (hspec : spec.Accepted) (r : Rig)
    (hr : Acyclic (launchArcs r.edges)) :
    (computeLaunchOrder localeCompare spec).isSome ∧
    (∀ order, computeLaunchOrder localeCompare spec = some (.ok order) →
      order.Perm spec.nodes ∧ Respects (constraintArcs spec.edges) order) ∧
    ((Fails localeCompare spec ↔ ¬ Acyclic (constraintArcs spec.edges)) ↔
      ("__proto__" ∉ spec.nodes ∨ ¬ Acyclic (constraintArcs spec.edges))) ∧
    (Agrees localeCompare r ↔ "__proto__" ∉ r.nodes.map (·.logicalId)) := by
  refine ⟨?_, fun order h => order_respects localeCompare hspec.closed h, ?_, ?_⟩
  · obtain ⟨order, -, hresult⟩ := computeLaunchOrder_spec localeCompare hspec.closed
    rw [hresult]
    rfl
  · rw [fails_iff localeCompare hspec.closed]
    tauto
  · constructor
    · intro h hproto
      refine (h [] r (.nil r)).1 ?_
      exact (rig_fails_iff localeCompare r.ids r.logicalIds r.placed).mpr (.inl hproto)
    · intro hproto ls r' hrun
      have hkeeps : r'.nodes = r.nodes ∧ Acyclic (launchArcs r'.edges) :=
        Runs.Path.invariant (I := fun s : Rig => s.nodes = r.nodes ∧ Acyclic (launchArcs s.edges))
          (fun _ _ _ hstep hs =>
            ⟨(edgeStep_keeps hstep hs.2).1.trans hs.1, (edgeStep_keeps hstep hs.2).2⟩)
          hrun ⟨rfl, hr⟩
      have hnone : "__proto__" ∉ r'.nodes.map (·.logicalId) := hkeeps.1 ▸ hproto
      refine ⟨fun hfails => ?_, fun input newId e he => ?_⟩
      · rcases (rig_fails_iff localeCompare r'.ids r'.logicalIds r'.placed).mp hfails with h | h
        · exact hnone h
        · exact h hkeeps.2
      · obtain ⟨outcome, r'', hadd, -, -, hiff⟩ := addRigEdge_spec hkeeps.2 input newId
        have hplaced : ∀ e' ∈ r'.edges ++ [e], Placed r'.nodes e' :=
          (r'.addEdge e (Rig.candidate_placed he)).placed
        refine ⟨outcome, r'', hadd, ?_⟩
        rw [hiff e he, rig_fails_iff localeCompare r'.ids r'.logicalIds hplaced]
        exact ⟨.inr, fun h => h.resolve_left hnone⟩

def leadSpec : RigSpec where
  nodes := ["lead", "worker", "scout"]
  edges := [⟨"worker", "lead", "spawned_by"⟩, ⟨"lead", "scout", "delegates_to"⟩]

/-- The rig of that spec, with its edges between rows. -/
def leadRig : Rig where
  nodes := [⟨"n1", "lead"⟩, ⟨"n2", "worker"⟩, ⟨"n3", "scout"⟩]
  edges := [⟨"e1", "n2", "n1", none, "spawned_by"⟩, ⟨"e2", "n1", "n3", none, "delegates_to"⟩]
  ids := by decide
  logicalIds := by decide
  placed := by
    intro e he
    rcases List.mem_cons.mp he with rfl | he
    · exact ⟨by decide, fun _ => by decide, fun h => absurd rfl h⟩
    · rw [List.mem_singleton.mp he]
      exact ⟨by decide, fun _ => by decide, fun h => absurd rfl h⟩

lemma leadSpec_accepted : leadSpec.Accepted where
  ids := by decide
  nodup := by decide
  named := by decide
  from' := by decide
  to' := fun e he => .inl (by revert e he; decide)
  kinds := by decide

lemma leadRig_acyclic : Acyclic (launchArcs leadRig.edges) := by
  have horder : Respects (launchArcs leadRig.edges) ["n1", "n2", "n3"] := by
    unfold Respects
    decide
  exact horder.acyclic

theorem launch_order_lead :
    (computeLaunchOrder (fun _ _ => 0) leadSpec).isSome ∧ Agrees (fun _ _ => 0) leadRig := by
  obtain ⟨hends, -, -, hagrees⟩ :=
    launch_order (fun _ _ => 0) leadSpec leadSpec_accepted leadRig leadRig_acyclic
  exact ⟨hends, hagrees.mpr (by decide)⟩

/-- A lone node named `__proto__` is accepted and has no cycle, and its launch order fails. -/
theorem proto_never_launches :
    let spec : RigSpec := ⟨["__proto__"], []⟩
    spec.Accepted ∧ Acyclic (constraintArcs spec.edges) ∧
      computeLaunchOrder (fun _ _ => 0) spec =
        some (.error "Dependency cycle detected among nodes: __proto__") := by
  refine ⟨⟨by decide, by decide, by decide, by decide, ?_, by decide⟩, ?_, by decide⟩
  · exact fun e he => absurd he List.not_mem_nil
  · have horder : Respects (constraintArcs (⟨["__proto__"], []⟩ : RigSpec).edges) [] := by
      unfold Respects
      decide
    exact horder.acyclic

end OpenRig.LaunchOrder
