import Mathlib.Data.List.Nodup
import Mathlib.Data.List.Basic
import Mathlib.Logic.Relation
import Mathlib.Tactic

/-!
The searches of a graph given by its successor lists: the depth-first cycle search with its
gray path and black set, the breadth-first sweep of the nodes a root reaches, and the depth-first
collection of the nodes behind one.

All run on fuel and say so when it ends; over a finite set of nodes closed under successors,
one unit for each node, and for each edge of the sweep, is always enough. A cycle search that
finds nothing leaves its black nodes in finishing order: the successors of each were finished
before it, so no path among them comes back.
-/

namespace OpenRig.Digraph

universe u
variable {α : Type u} {succ : α → List α}

/-- `y` is a successor of `x`. -/
def Edge (succ : α → List α) (x y : α) : Prop := y ∈ succ x

/-! ### Finishing orders -/

/-- The nodes in finishing order, newest first: each node's successors come after it. -/
def Finished (succ : α → List α) : List α → Prop
  | [] => True
  | x :: rest => (∀ y ∈ succ x, y ∈ rest) ∧ Finished succ rest

lemma Finished.closed {l : List α} (h : Finished succ l) {x y : α} (hx : x ∈ l)
    (hy : Edge succ x y) : y ∈ l := by
  induction l with
  | nil => simp at hx
  | cons a rest ih =>
    rcases List.mem_cons.mp hx with rfl | hx
    · exact List.mem_cons_of_mem _ (h.1 y hy)
    · exact List.mem_cons_of_mem _ (ih h.2 hx)

lemma Finished.reaches {l : List α} (h : Finished succ l) {x y : α} (hx : x ∈ l)
    (hxy : Relation.ReflTransGen (Edge succ) x y) : y ∈ l := by
  induction hxy with
  | refl => exact hx
  | tail _ hstep ih => exact h.closed ih hstep

/-- **No path among finished nodes goes on forever.** -/
theorem Finished.acc {l : List α} (h : Finished succ l) {x : α} (hx : x ∈ l) :
    Acc (fun y x => Edge succ x y) x := by
  induction l generalizing x with
  | nil => simp at hx
  | cons a rest ih =>
    rcases List.mem_cons.mp hx with rfl | hx
    · exact ⟨_, fun y hy => ih h.2 (h.1 y hy)⟩
    · exact ih h.2 hx

/-- A finished node is not reached from itself by a path with an edge. -/
theorem Finished.irrefl {l : List α} (h : Finished succ l) {x : α} (hx : x ∈ l) :
    ¬ Relation.TransGen (Edge succ) x x := by
  induction h.acc hx with
  | intro x _ ih =>
    intro hcycle
    obtain ⟨y, hxy, hyx⟩ := Relation.TransGen.head'_iff.mp hcycle
    exact ih y hxy (h.closed hx hxy) (.tail' hyx hxy)

lemma length_le_of_nodup {l nodes : List α} (hn : l.Nodup) (hl : ∀ x ∈ l, x ∈ nodes) :
    l.length ≤ nodes.length :=
  (hn.subperm hl).length_le

/-! ### The cycle search -/

/-- How a search ends: on a closed path, with the black nodes newest first, or out of fuel. -/
inductive Search (α : Type u) where
  | cycle (path : List α)
  | cleared (black : List α)
  | exhausted
  deriving DecidableEq

/-- What a visit that clears leaves: more finished nodes, none of them gray. -/
structure Cleared (succ : α → List α) (stack black black' : List α) : Prop where
  suffix : black <:+ black'
  finished : Finished succ black'
  nodup : black'.Nodup
  apart : ∀ x ∈ black', x ∉ stack

lemma Cleared.trans {stack black black₁ black₂ : List α} (h : Cleared succ stack black black₁)
    (h' : Cleared succ stack black₁ black₂) : Cleared succ stack black black₂ :=
  ⟨h.suffix.trans h'.suffix, h'.finished, h'.nodup, h'.apart⟩

variable [DecidableEq α]

/-- The loop over a node's successors: a gray one closes a path, a black one is skipped. -/
def loop (visit : List α → α → Search α) (stack : List α) : List α → List α → Search α
  | black, [] => .cleared black
  | black, s :: rest =>
    if s ∈ stack then .cycle ((stack.reverse.dropWhile (· ≠ s)) ++ [s])
    else if s ∈ black then loop visit stack black rest
    else match visit black s with
      | .cleared black => loop visit stack black rest
      | r => r

/-- The visit of a node that is neither gray nor black: it turns gray, its successors are
searched, and it turns black. -/
def dfs (succ : α → List α) : ℕ → List α → List α → α → Search α
  | 0, _, _, _ => .exhausted
  | fuel + 1, stack, black, id =>
    match loop (fun black s => dfs succ fuel (id :: stack) black s) (id :: stack) black
        (succ id) with
    | .cleared black => .cleared (id :: black)
    | r => r

/-- The search from every root that no earlier root reached. -/
def searchRoots (succ : α → List α) (fuel : ℕ) (roots : List α) : Search α :=
  loop (fun black s => dfs succ fuel [] black s) [] [] roots

lemma loop_cleared {visit : List α → α → Search α} {stack : List α}
    (hvisit : ∀ black s black', s ∉ stack → s ∉ black → Finished succ black → black.Nodup →
      (∀ x ∈ black, x ∉ stack) → visit black s = .cleared black' →
      Cleared succ stack black black' ∧ s ∈ black') :
    ∀ (ids black black' : List α), Finished succ black → black.Nodup →
      (∀ x ∈ black, x ∉ stack) → loop visit stack black ids = .cleared black' →
      Cleared succ stack black black' ∧ ∀ s ∈ ids, s ∈ black' := by
  intro ids
  induction ids with
  | nil =>
    rintro black black' hf hn ha h
    obtain rfl : black = black' := by simpa [loop] using h
    exact ⟨⟨List.suffix_rfl, hf, hn, ha⟩, by simp⟩
  | cons s rest ih =>
    intro black black' hf hn ha h
    unfold loop at h
    split at h
    · cases h
    rename_i hstack
    split at h
    · rename_i hblack
      obtain ⟨hc, hrest⟩ := ih _ _ hf hn ha h
      refine ⟨hc, fun x hx => ?_⟩
      rcases List.mem_cons.mp hx with rfl | hx
      · exact hc.suffix.subset hblack
      · exact hrest x hx
    · rename_i hblack
      split at h
      · rename_i black₁ hv
        obtain ⟨hc, hs⟩ := hvisit _ _ _ hstack hblack hf hn ha hv
        obtain ⟨hc', hrest⟩ := ih _ _ hc.finished hc.nodup hc.apart h
        refine ⟨hc.trans hc', fun x hx => ?_⟩
        rcases List.mem_cons.mp hx with rfl | hx
        · exact hc'.suffix.subset hs
        · exact hrest x hx
      · rename_i hne
        exact absurd h (hne black')

/-- **A visit that clears finishes its node after all of its successors.** -/
lemma dfs_cleared : ∀ (fuel : ℕ) (stack black black' : List α) (id : α), id ∉ stack →
    id ∉ black → Finished succ black → black.Nodup → (∀ x ∈ black, x ∉ stack) →
    dfs succ fuel stack black id = .cleared black' →
    Cleared succ stack black black' ∧ id ∈ black' := by
  intro fuel
  induction fuel with
  | zero =>
    intro stack black black' id _ _ _ _ _ h
    simp [dfs] at h
  | succ fuel ih =>
    intro stack black black' id hs hb hf hn ha h
    unfold dfs at h
    split at h
    · rename_i black₁ hloop
      have ha' : ∀ x ∈ black, x ∉ id :: stack := by
        intro x hx
        rw [List.mem_cons, not_or]
        exact ⟨fun e => hb (e ▸ hx), ha x hx⟩
      obtain ⟨hc, hsucc⟩ := loop_cleared (fun black s black' => ih (id :: stack) black black' s)
        _ _ _ hf hn ha' hloop
      cases h
      have hid : id ∉ black₁ := fun hmem => hc.apart id hmem List.mem_cons_self
      refine ⟨⟨hc.suffix.trans (List.suffix_cons _ _), ⟨hsucc, hc.finished⟩,
        List.nodup_cons.mpr ⟨hid, hc.nodup⟩, fun x hx => ?_⟩, List.mem_cons_self⟩
      rcases List.mem_cons.mp hx with rfl | hx
      · exact hs
      · exact fun hst => hc.apart x hx (List.mem_cons_of_mem _ hst)
    · rename_i hne
      exact absurd h (hne black')

/-- **A search that finds no cycle finishes every root.** -/
theorem searchRoots_cleared {fuel : ℕ} {roots black : List α}
    (h : searchRoots succ fuel roots = .cleared black) :
    Finished succ black ∧ black.Nodup ∧ ∀ r ∈ roots, r ∈ black := by
  have hnil : Finished succ [] := trivial
  obtain ⟨hc, hroots⟩ := loop_cleared (fun black s black' => dfs_cleared fuel [] black black' s)
    roots [] black hnil List.nodup_nil (by simp) h
  exact ⟨hc.finished, hc.nodup, hroots⟩

/-! ### Fuel of the cycle search -/

lemma loop_ne_exhausted {visit : List α → α → Search α} {stack : List α} {p : α → Prop}
    (hvisit : ∀ black s, p s → s ∉ stack → visit black s ≠ .exhausted) :
    ∀ (ids black : List α), (∀ s ∈ ids, p s) → loop visit stack black ids ≠ .exhausted := by
  intro ids
  induction ids with
  | nil => intro black _; simp [loop]
  | cons s rest ih =>
    intro black hp
    have hs := hp s List.mem_cons_self
    have hrest := fun b => ih b fun x hx => hp x (List.mem_cons_of_mem _ hx)
    unfold loop
    split
    · simp
    rename_i hstack
    split
    · exact hrest _
    · split
      · exact hrest _
      · exact hvisit _ _ hs hstack

lemma dfs_ne_exhausted {nodes : List α} (hclosed : ∀ x ∈ nodes, ∀ y ∈ succ x, y ∈ nodes) :
    ∀ (fuel : ℕ) (stack black : List α) (id : α), id ∈ nodes → id ∉ stack → stack.Nodup →
      (∀ x ∈ stack, x ∈ nodes) → nodes.length < fuel + stack.length →
      dfs succ fuel stack black id ≠ .exhausted := by
  intro fuel
  induction fuel with
  | zero =>
    intro stack black id _ _ hn hs hlt
    have := length_le_of_nodup hn hs
    omega
  | succ fuel ih =>
    intro stack black id hid hstack hn hs hlt
    have hn' : (id :: stack).Nodup := List.nodup_cons.mpr ⟨hstack, hn⟩
    have hs' : ∀ x ∈ id :: stack, x ∈ nodes := by simpa using ⟨hid, hs⟩
    have hloop : loop (fun black s => dfs succ fuel (id :: stack) black s) (id :: stack) black
        (succ id) ≠ .exhausted := by
      refine loop_ne_exhausted (p := fun s => s ∈ nodes) ?_ _ _ (hclosed id hid)
      intro black s hsn hss
      exact ih _ _ _ hsn hss hn' hs' (by simp only [List.length_cons]; omega)
    unfold dfs
    split
    · simp
    · exact hloop

/-- **The cycle search ends**: fuel for one visit more than there are nodes is enough. -/
theorem searchRoots_ne_exhausted {nodes roots : List α}
    (hclosed : ∀ x ∈ nodes, ∀ y ∈ succ x, y ∈ nodes) (hroots : ∀ r ∈ roots, r ∈ nodes) :
    searchRoots succ (nodes.length + 1) roots ≠ .exhausted := by
  refine loop_ne_exhausted (p := fun s => s ∈ nodes) ?_ _ _ hroots
  intro black s hs _
  exact dfs_ne_exhausted hclosed _ _ _ _ hs (by simp) List.nodup_nil (by simp) (by simp)

/-! ### The reachability sweep -/

/-- The queue loop: a node seen before is skipped, a new one is marked and its successors are
queued. `none` is out of fuel. -/
def sweep (succ : α → List α) : ℕ → List α → List α → Option (List α)
  | _, reached, [] => some reached
  | 0, _, _ :: _ => none
  | fuel + 1, reached, id :: queue =>
    if id ∈ reached then sweep succ fuel reached queue
    else sweep succ fuel (id :: reached) (queue ++ succ id)

/-- **The sweep marks only nodes the root reaches.** -/
theorem sweep_sound {root : α} : ∀ (fuel : ℕ) (reached queue out : List α),
    (∀ x ∈ reached, Relation.ReflTransGen (Edge succ) root x) →
    (∀ x ∈ queue, Relation.ReflTransGen (Edge succ) root x) →
    sweep succ fuel reached queue = some out →
    ∀ x ∈ out, Relation.ReflTransGen (Edge succ) root x := by
  intro fuel
  induction fuel with
  | zero =>
    intro reached queue out hr _ h
    cases queue with
    | nil =>
      obtain rfl : reached = out := by simpa [sweep] using h
      exact hr
    | cons => simp [sweep] at h
  | succ fuel ih =>
    intro reached queue out hr hq h
    cases queue with
    | nil =>
      obtain rfl : reached = out := by simpa [sweep] using h
      exact hr
    | cons id queue =>
      have hid := hq id List.mem_cons_self
      have hqueue := fun x hx => hq x (List.mem_cons_of_mem _ hx)
      unfold sweep at h
      split at h
      · exact ih _ _ _ hr hqueue h
      · refine ih _ _ _ ?_ ?_ h
        · intro x hx
          rcases List.mem_cons.mp hx with rfl | hx
          · exact hid
          · exact hr x hx
        · intro x hx
          rcases List.mem_append.mp hx with hx | hx
          · exact hqueue x hx
          · exact hid.tail hx

/-- The successors still to be queued: those of the nodes not marked yet. -/
def pendingEdges (succ : α → List α) (nodes reached : List α) : ℕ :=
  ((nodes.filter (· ∉ reached)).map fun x => (succ x).length).sum

lemma pendingEdges_mark {nodes reached : List α} {id : α} (hid : id ∈ nodes)
    (hnew : id ∉ reached) :
    pendingEdges succ nodes (id :: reached) + (succ id).length ≤
      pendingEdges succ nodes reached := by
  unfold pendingEdges
  induction nodes with
  | nil => simp at hid
  | cons a nodes ih =>
    have hle : ∀ ns : List α, ((ns.filter (· ∉ id :: reached)).map fun x => (succ x).length).sum ≤
        ((ns.filter (· ∉ reached)).map fun x => (succ x).length).sum := by
      intro ns
      refine List.Sublist.sum_le_sum (List.Sublist.map _ ?_) fun _ _ => Nat.zero_le _
      refine List.monotone_filter_right _ fun x hx => ?_
      simp only [decide_eq_true_eq, List.mem_cons, not_or] at hx ⊢
      exact hx.2
    rcases eq_or_ne a id with rfl | hne
    · have := hle nodes
      simp only [List.filter_cons, List.mem_cons, true_or, not_true_eq_false, decide_false,
        Bool.false_eq_true, if_false, hnew, not_false_eq_true, decide_true, if_true,
        List.map_cons, List.sum_cons] at this ⊢
      omega
    · have := ih ((List.mem_cons.mp hid).resolve_left hne.symm)
      by_cases hr : a ∈ reached
      · simpa [hne, hr] using this
      · simp [hne, hr] at this ⊢
        omega

lemma sweep_isSome {nodes : List α} (hclosed : ∀ x ∈ nodes, ∀ y ∈ succ x, y ∈ nodes) :
    ∀ (fuel : ℕ) (reached queue : List α), (∀ x ∈ queue, x ∈ nodes) →
      queue.length + pendingEdges succ nodes reached ≤ fuel →
      (sweep succ fuel reached queue).isSome := by
  intro fuel
  induction fuel with
  | zero =>
    intro reached queue _ hle
    obtain rfl : queue = [] := List.length_eq_zero_iff.mp (by omega)
    simp [sweep]
  | succ fuel ih =>
    intro reached queue hq hle
    cases queue with
    | nil => simp [sweep]
    | cons id queue =>
      have hid := hq id List.mem_cons_self
      have hqueue := fun x hx => hq x (List.mem_cons_of_mem _ hx)
      simp only [List.length_cons] at hle
      unfold sweep
      split
      · exact ih _ _ hqueue (by omega)
      · rename_i hnew
        have hmark : pendingEdges succ nodes (id :: reached) + (succ id).length ≤
            pendingEdges succ nodes reached := pendingEdges_mark hid hnew
        refine ih _ _ (fun x hx => ?_) (by simp only [List.length_append]; omega)
        rcases List.mem_append.mp hx with hx | hx
        · exact hqueue x hx
        · exact hclosed id hid x hx

/-- **The sweep ends**: fuel for the root and every edge is enough. -/
theorem sweep_root_isSome {nodes : List α} {root : α}
    (hclosed : ∀ x ∈ nodes, ∀ y ∈ succ x, y ∈ nodes) (hroot : root ∈ nodes) :
    (sweep succ (1 + (nodes.map fun x => (succ x).length).sum) [] [root]).isSome :=
  sweep_isSome hclosed _ _ _ (by simpa using hroot) (by simp [pendingEdges])

/-! ### Collecting the nodes behind one -/

/-- The nodes behind `id`, added to the seen ones: each is recorded before its own successors are
visited. -/
def collect (succ : α → List α) : ℕ → List α → α → List α
  | 0, seen, _ => seen
  | fuel + 1, seen, id => (succ id).foldl
      (fun seen p => if p ∈ seen then seen else collect succ fuel (p :: seen) p) seen

/-- What a visit leaves: the seen nodes and new ones, each new one behind `id` and expanded. -/
structure Collected (succ : α → List α) (nodes seen out : List α) (id : α) : Prop where
  keeps : ∀ x ∈ seen, x ∈ out
  nodup : out.Nodup
  within : ∀ x ∈ out, x ∈ nodes
  behind : ∀ x ∈ out, x ∈ seen ∨ Relation.TransGen (Edge succ) id x
  expanded : ∀ x ∈ out, x ∈ seen ∨ ∀ y ∈ succ x, y ∈ out

lemma collect_spec {nodes : List α} (hclosed : ∀ x ∈ nodes, ∀ y ∈ succ x, y ∈ nodes) :
    ∀ (fuel : ℕ) (seen : List α) (id : α), id ∈ nodes → seen.Nodup → (∀ x ∈ seen, x ∈ nodes) →
      nodes.length < fuel + seen.length →
      Collected succ nodes seen (collect succ fuel seen id) id ∧
        ∀ y ∈ succ id, y ∈ collect succ fuel seen id := by
  intro fuel
  induction fuel with
  | zero =>
    intro seen id _ hnodup hwithin hfuel
    have := length_le_of_nodup hnodup hwithin
    omega
  | succ fuel ih =>
    intro seen id hid hnodup hwithin hfuel
    -- the loop over the successors keeps what a visit promises, over the seen nodes it began with
    have hloop : ∀ (ps acc : List α), (∀ p ∈ ps, p ∈ succ id) →
        Collected succ nodes seen acc id → seen.length ≤ acc.length →
        Collected succ nodes seen (ps.foldl (fun seen p => if p ∈ seen then seen
          else collect succ fuel (p :: seen) p) acc) id ∧
        (∀ x ∈ acc, x ∈ ps.foldl (fun seen p => if p ∈ seen then seen
          else collect succ fuel (p :: seen) p) acc) ∧
        ∀ p ∈ ps, p ∈ ps.foldl (fun seen p => if p ∈ seen then seen
          else collect succ fuel (p :: seen) p) acc := by
      intro ps
      induction ps with
      | nil => exact fun acc _ hacc _ => ⟨hacc, fun x hx => hx, by simp⟩
      | cons p ps ihps =>
        intro acc hps hacc hlen
        have hp : p ∈ succ id := hps p List.mem_cons_self
        have hps' : ∀ q ∈ ps, q ∈ succ id := fun q hq => hps q (List.mem_cons_of_mem _ hq)
        rw [List.foldl_cons]
        by_cases hseen : p ∈ acc
        · rw [if_pos hseen]
          obtain ⟨hc, hk, hall⟩ := ihps acc hps' hacc hlen
          refine ⟨hc, hk, fun q hq => ?_⟩
          rcases List.mem_cons.mp hq with rfl | hq
          · exact hk _ hseen
          · exact hall q hq
        · rw [if_neg hseen]
          have hpn : p ∈ nodes := hclosed id hid p hp
          have hnd : (p :: acc).Nodup := List.nodup_cons.mpr ⟨hseen, hacc.nodup⟩
          have hwi : ∀ x ∈ p :: acc, x ∈ nodes := by
            rintro x hx
            rcases List.mem_cons.mp hx with rfl | hx
            · exact hpn
            · exact hacc.within x hx
          obtain ⟨hv, hvall⟩ := ih (p :: acc) p hpn hnd hwi (by
            rw [List.length_cons]
            omega)
          set out := collect succ fuel (p :: acc) p with hout
          have hpout : p ∈ out := hv.keeps p List.mem_cons_self
          have hacc' : Collected succ nodes seen out id := by
            refine ⟨fun x hx => hv.keeps x (List.mem_cons_of_mem _ (hacc.keeps x hx)), hv.nodup,
              hv.within, fun x hx => ?_, fun x hx => ?_⟩
            · rcases hv.behind x hx with hx | hx
              · rcases List.mem_cons.mp hx with rfl | hx
                · exact .inr (.single hp)
                · exact hacc.behind x hx
              · exact .inr (.head hp hx)
            · rcases hv.expanded x hx with hx | hx
              · rcases List.mem_cons.mp hx with rfl | hx
                · exact .inr hvall
                · exact (hacc.expanded x hx).imp_right fun h y hy =>
                    hv.keeps y (List.mem_cons_of_mem _ (h y hy))
              · exact .inr hx
          have hlen' : seen.length ≤ out.length := by
            have hsub := (hnodup.subperm hacc'.keeps).length_le
            exact hsub
          obtain ⟨hc, hk, hall⟩ := ihps out hps' hacc' hlen'
          refine ⟨hc, fun x hx => hk x (hv.keeps x (List.mem_cons_of_mem _ hx)), fun q hq => ?_⟩
          rcases List.mem_cons.mp hq with rfl | hq
          · exact hk _ hpout
          · exact hall q hq
    obtain ⟨hc, -, hall⟩ := hloop (succ id) seen (fun p hp => hp)
      ⟨fun x hx => hx, hnodup, hwithin, fun x hx => .inl hx, fun x hx => .inl hx⟩ le_rfl
    exact ⟨hc, hall⟩

/-- **The collection is exactly the nodes behind one.** -/
theorem mem_collect {nodes : List α} (hclosed : ∀ x ∈ nodes, ∀ y ∈ succ x, y ∈ nodes) {id x : α}
    (hid : id ∈ nodes) : x ∈ collect succ (nodes.length + 1) [] id ↔
      Relation.TransGen (Edge succ) id x := by
  obtain ⟨hc, hall⟩ := collect_spec hclosed (nodes.length + 1) [] id hid List.nodup_nil (by simp)
    (by simp)
  constructor
  · intro hx
    exact (hc.behind x hx).resolve_left (by simp)
  · intro hx
    induction hx with
    | single hstep => exact hall _ hstep
    | tail _ hstep ih => exact (hc.expanded _ ih).resolve_left (by simp) _ hstep

end OpenRig.Digraph
