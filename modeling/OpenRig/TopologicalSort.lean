import Mathlib.Data.List.Nodup
import Mathlib.Data.Set.Finite.List
import Mathlib.Order.WellFounded
import OpenRig.Digraph

/-!
Sorting a graph of arcs by removing nodes that nothing pending leads to, and the search that tells
whether one more arc would close a cycle.

The sort ends with every node exactly when the arcs have no cycle, and then each arc's source
stands before its target. The search finds the goal exactly when it is reached.
-/

namespace OpenRig.TopologicalSort

open Relation

universe u
variable {α : Type u} {arcs arcs' : List (α × α)}

def Arc (arcs : List (α × α)) (x y : α) : Prop := (x, y) ∈ arcs

def Acyclic (arcs : List (α × α)) : Prop := ∀ x, ¬ TransGen (Arc arcs) x x

lemma Acyclic.subset (h : Acyclic arcs) (hsub : ∀ a ∈ arcs', a ∈ arcs) : Acyclic arcs' :=
  fun x hx => h x (TransGen.mono (fun _ _ ha => hsub _ ha) _ _ hx)

lemma acyclic_congr (h : ∀ a, a ∈ arcs ↔ a ∈ arcs') : Acyclic arcs ↔ Acyclic arcs' :=
  ⟨fun hc => hc.subset fun a ha => (h a).mpr ha, fun hc => hc.subset fun a ha => (h a).mp ha⟩

/-- **One more arc closes a cycle** exactly when its target reaches its source. -/
lemma acyclic_cons_iff (h : Acyclic arcs) {a b : α} :
    Acyclic ((a, b) :: arcs) ↔ ¬ ReflTransGen (Arc arcs) b a := by
  have hmono : ∀ {x y}, ReflTransGen (Arc arcs) x y → ReflTransGen (Arc ((a, b) :: arcs)) x y :=
    fun hxy => ReflTransGen.mono (fun _ _ hxy => List.mem_cons_of_mem _ hxy) _ _ hxy
  constructor
  · intro hc hba
    exact hc a (.head' List.mem_cons_self (hmono hba))
  · intro hba x hx
    -- A path of the larger graph avoids the new arc, or goes once through it.
    have hpath : ∀ y, TransGen (Arc ((a, b) :: arcs)) x y → TransGen (Arc arcs) x y ∨
        ReflTransGen (Arc arcs) x a ∧ ReflTransGen (Arc arcs) b y := by
      intro y hy
      induction hy with
      | single hxy =>
        rcases List.mem_cons.mp hxy with he | hxy
        · cases he
          exact .inr ⟨.refl, .refl⟩
        · exact .inl (.single hxy)
      | tail _ hyz ih =>
        rcases List.mem_cons.mp hyz with he | hyz
        · cases he
          rcases ih with hxa | ⟨hxa, hba'⟩
          · exact .inr ⟨hxa.to_reflTransGen, .refl⟩
          · exact absurd hba' hba
        · rcases ih with hxy | ⟨hxa, hby⟩
          · exact .inl (hxy.tail hyz)
          · exact .inr ⟨hxa, hby.tail hyz⟩
    rcases hpath x hx with hx | ⟨hxa, hbx⟩
    · exact h x hx
    · exact hba (hbx.trans hxa)

lemma acyclic_map_iff {β : Type u} {f : α → β} {nodes : List α}
    (hinj : ∀ x ∈ nodes, ∀ y ∈ nodes, f x = f y → x = y)
    (hends : ∀ a ∈ arcs, a.1 ∈ nodes ∧ a.2 ∈ nodes) :
    Acyclic (arcs.map fun a => (f a.1, f a.2)) ↔ Acyclic arcs := by
  constructor
  · intro h x hx
    exact h (f x) (TransGen.lift f (fun a b hab => List.mem_map.mpr ⟨(a, b), hab, rfl⟩) _ _ hx)
  · intro h y hy
    have hback : ∀ z, TransGen (Arc (arcs.map fun a => (f a.1, f a.2))) y z →
        ∃ u ∈ nodes, ∃ v ∈ nodes, f u = y ∧ f v = z ∧ TransGen (Arc arcs) u v := by
      intro z hz
      induction hz with
      | single hyz =>
        obtain ⟨a, ha, he⟩ := List.mem_map.mp hyz
        cases he
        exact ⟨_, (hends a ha).1, _, (hends a ha).2, rfl, rfl, .single ha⟩
      | tail _ hzw ih =>
        obtain ⟨u, hu, v, hv, rfl, hvz, huv⟩ := ih
        obtain ⟨a, ha, he⟩ := List.mem_map.mp hzw
        obtain ⟨haz, haw⟩ := Prod.mk.inj he
        obtain rfl : a.1 = v := hinj _ (hends a ha).1 _ hv (haz.trans hvz.symm)
        exact ⟨u, hu, a.2, (hends a ha).2, rfl, haw, huv.tail ha⟩
    obtain ⟨u, hu, v, hv, hfu, hfv, huv⟩ := hback y hy
    obtain rfl : u = v := hinj u hu v hv (hfu.trans hfv.symm)
    exact h u huv

lemma Acyclic.exists_minimal (h : Acyclic arcs) {nodes : List α} {p : α → Prop}
    (hne : ∃ x ∈ nodes, p x) :
    ∃ x ∈ nodes, p x ∧ ∀ y ∈ nodes, p y → (y, x) ∉ arcs := by
  let r : {x // x ∈ nodes} → {x // x ∈ nodes} → Prop := fun x y => TransGen (Arc arcs) x y
  have : Finite {x // x ∈ nodes} := nodes.finite_toSet
  have : IsTrans _ r := ⟨fun _ _ _ => TransGen.trans⟩
  have : Std.Irrefl r := ⟨fun x => h x⟩
  have hwf : WellFounded r := Finite.wellFounded_of_trans_of_irrefl r
  obtain ⟨x₀, hx₀, hp₀⟩ := hne
  obtain ⟨⟨x, hx⟩, hpx, hmin⟩ := hwf.has_min {x | p x.1} ⟨⟨x₀, hx₀⟩, hp₀⟩
  exact ⟨x, hx, hpx, fun y hy hpy harc => hmin ⟨y, hy⟩ hpy (.single harc)⟩

variable [DecidableEq α]

/-- Each arc's source stands before its target. -/
def Respects (arcs : List (α × α)) (order : List α) : Prop :=
  ∀ a ∈ arcs, a.1 ∈ order ∧ order.idxOf a.1 < order.idxOf a.2

lemma Respects.acyclic {order : List α} (h : Respects arcs order) : Acyclic arcs := by
  have hlt : ∀ {x y}, TransGen (Arc arcs) x y → order.idxOf x < order.idxOf y := by
    intro x y hxy
    induction hxy with
    | single hxy => exact (h _ hxy).2
    | tail _ hyz ih => exact ih.trans (h _ hyz).2
  exact fun x hx => lt_irrefl _ (hlt hx)

/-! ### The sort -/

/-- The arcs into a node whose sources are not done. -/
def pending (arcs : List (α × α)) (done : List α) (x : α) : ℕ :=
  arcs.countP fun a => a.2 = x ∧ a.1 ∉ done

def arcsFrom (arcs : List (α × α)) (x : α) : List α := (arcs.filter (·.1 = x)).map (·.2)

lemma pending_eq_zero {done : List α} {x : α} :
    pending arcs done x = 0 ↔ ∀ y, (y, x) ∈ arcs → y ∈ done := by
  rw [pending, List.countP_eq_zero]
  constructor
  · intro h y hy
    by_contra hnot
    exact h _ hy (by simpa using hnot)
  · rintro h ⟨y, z⟩ ha hp
    simp only [decide_eq_true_eq] at hp
    obtain ⟨rfl, hnot⟩ := hp
    exact hnot (h y ha)

lemma pending_snoc {done : List α} {c : α} (hc : c ∉ done) (x : α) :
    pending arcs (done ++ [c]) x + (arcsFrom arcs c).count x = pending arcs done x := by
  unfold pending arcsFrom
  induction arcs with
  | nil => rfl
  | cons a arcs ih =>
    obtain ⟨y, z⟩ := a
    by_cases hz : z = x
    · by_cases hy : y = c
      · subst hz hy
        have hdone : y ∉ done := hc
        simp [hdone] at ih ⊢
        omega
      · subst hz
        by_cases hd : y ∈ done
        · simp [hy, hd] at ih ⊢
          omega
        · simp [hy, hd] at ih ⊢
          omega
    · by_cases hy : y = c
      · subst hy
        simp [hz] at ih ⊢
        omega
      · simp [hz, hy] at ih ⊢
        omega

/-- The queue holds the nodes that are not done and that nothing pending leads to. -/
structure Sorting (arcs : List (α × α)) (nodes order queue : List α) : Prop where
  nodup : (order ++ queue).Nodup
  within : ∀ x ∈ order ++ queue, x ∈ nodes
  ready : ∀ x ∈ nodes, (x ∈ order ++ queue ↔ pending arcs order x = 0)
  respects : ∀ a ∈ arcs, a.2 ∈ order → a.1 ∈ order ∧ order.idxOf a.1 < order.idxOf a.2

lemma Sorting.start {nodes queue : List α} (hnodup : queue.Nodup)
    (hqueue : ∀ x, x ∈ queue ↔ x ∈ nodes ∧ pending arcs [] x = 0) :
    Sorting arcs nodes [] queue where
  nodup := hnodup
  within := fun x hx => ((hqueue x).mp hx).1
  ready := fun x hx => by simp [hqueue, hx]
  respects := fun a _ h => absurd h List.not_mem_nil

/-- **One node is done**: it leaves the queue, and the nodes that only it held up join. -/
lemma Sorting.step {nodes order rest queue : List α} {c : α}
    (h : Sorting arcs nodes order (c :: rest)) (hnodup : queue.Nodup)
    (hqueue : ∀ x, x ∈ queue ↔ x ∈ rest ∨
      (x ∈ nodes ∧ pending arcs order x ≠ 0 ∧ pending arcs (order ++ [c]) x = 0)) :
    Sorting arcs nodes (order ++ [c]) queue := by
  have hc : c ∉ order := fun hin =>
    (List.nodup_append.mp h.nodup).2.2 c hin c List.mem_cons_self rfl
  have hready : ∀ x ∈ order ++ c :: rest, pending arcs order x = 0 := fun x hx =>
    (h.ready x (h.within x hx)).mp hx
  have hless : ∀ x, pending arcs (order ++ [c]) x ≤ pending arcs order x := fun x => by
    have hsplit : pending arcs (order ++ [c]) x + _ = _ := pending_snoc hc x
    omega
  have hperm : (order ++ c :: rest) = (order ++ [c]) ++ rest := by simp
  have hmem : ∀ x, x ∈ (order ++ [c]) ++ queue ↔ x ∈ order ++ c :: rest ∨
      (x ∈ nodes ∧ pending arcs order x ≠ 0 ∧ pending arcs (order ++ [c]) x = 0) := by
    intro x
    rw [hperm, List.mem_append, hqueue, List.mem_append (s := order ++ [c]), or_assoc]
  refine ⟨?_, ?_, ?_, ?_⟩
  · rw [List.nodup_append]
    have hfront := h.nodup
    rw [hperm, List.nodup_append] at hfront
    refine ⟨hfront.1, hnodup, ?_⟩
    rintro x hx y hy rfl
    rcases (hqueue x).mp hy with hrest | ⟨-, hne, -⟩
    · exact hfront.2.2 x hx x hrest rfl
    · refine hne (hready x ?_)
      rw [hperm]
      exact List.mem_append_left _ hx
  · intro x hx
    rcases (hmem x).mp hx with hx | hx
    · exact h.within x hx
    · exact hx.1
  · intro x hx
    rw [hmem]
    constructor
    · rintro (hin | hnew)
      · have := hready x hin
        have := hless x
        omega
      · exact hnew.2.2
    · intro hzero
      by_cases hp : pending arcs order x = 0
      · exact .inl ((h.ready x hx).mpr hp)
      · exact .inr ⟨hx, hp, hzero⟩
  · intro a ha hin
    rcases List.mem_append.mp hin with hin | hin
    · obtain ⟨hsource, hlt⟩ := h.respects a ha hin
      rw [List.idxOf_append_of_mem hsource, List.idxOf_append_of_mem hin]
      exact ⟨List.mem_append_left _ hsource, hlt⟩
    · rw [List.mem_singleton] at hin
      have hsource : a.1 ∈ order :=
        pending_eq_zero.mp (hready c (by simp)) a.1 (hin ▸ ha)
      refine ⟨List.mem_append_left _ hsource, ?_⟩
      rw [List.idxOf_append_of_mem hsource, hin, List.idxOf_append_of_notMem hc]
      have := List.idxOf_lt_length_of_mem hsource
      omega

/-- **A sort that ends has every node exactly when the arcs have no cycle.** -/
lemma Sorting.complete_iff {nodes order : List α} (h : Sorting arcs nodes order [])
    (hends : ∀ a ∈ arcs, a.1 ∈ nodes ∧ a.2 ∈ nodes) :
    (∀ x ∈ nodes, x ∈ order) ↔ Acyclic arcs := by
  constructor
  · intro hall
    have hrespects : Respects arcs order := fun a ha => h.respects a ha (hall _ (hends a ha).2)
    exact hrespects.acyclic
  · intro hc x hx
    by_contra hnot
    obtain ⟨y, hy, hleft, hmin⟩ := hc.exists_minimal (p := fun y => y ∉ order) ⟨x, hx, hnot⟩
    have hpending : pending arcs order y = 0 := by
      refine pending_eq_zero.mpr fun z hz => ?_
      by_contra hzleft
      exact hmin z (hends _ hz).1 hzleft hz
    have hin := (h.ready y hy).mpr hpending
    rw [List.append_nil] at hin
    exact hleft hin

lemma Sorting.perm {nodes order : List α} (h : Sorting arcs nodes order []) (hn : nodes.Nodup)
    (hall : ∀ x ∈ nodes, x ∈ order) : order.Perm nodes := by
  have hnodup := h.nodup
  rw [List.append_nil] at hnodup
  refine (List.perm_ext_iff_of_nodup hnodup hn).mpr fun x => ⟨fun hx => ?_, hall x⟩
  exact h.within x (by rwa [List.append_nil])

/-! ### The search -/

/-- The stack loop, its top first; `none` is out of fuel. -/
def seek (next : α → List α) (goal : α) : ℕ → List α → List α → Option Bool
  | _, [], _ => some false
  | 0, _ :: _, _ => none
  | fuel + 1, node :: stack, seen =>
    if node = goal then some true
    else if node ∈ seen then seek next goal fuel stack seen
    else seek next goal fuel ((next node).reverse ++ stack) (node :: seen)

lemma seek_true {next : α → List α} {goal : α} : ∀ (fuel : ℕ) (stack seen : List α),
    seek next goal fuel stack seen = some true →
      ∃ x ∈ stack, ReflTransGen (Digraph.Edge next) x goal := by
  intro fuel
  induction fuel with
  | zero =>
    intro stack seen h
    cases stack with
    | nil => simp [seek] at h
    | cons => simp [seek] at h
  | succ fuel ih =>
    intro stack seen h
    cases stack with
    | nil => simp [seek] at h
    | cons node stack =>
      rw [seek] at h
      split at h
      · rename_i hgoal
        exact ⟨node, List.mem_cons_self, hgoal ▸ .refl⟩
      · split at h
        · obtain ⟨x, hx, hreach⟩ := ih _ _ h
          exact ⟨x, List.mem_cons_of_mem _ hx, hreach⟩
        · obtain ⟨x, hx, hreach⟩ := ih _ _ h
          rcases List.mem_append.mp hx with hx | hx
          · exact ⟨node, List.mem_cons_self, .head (List.mem_reverse.mp hx) hreach⟩
          · exact ⟨x, List.mem_cons_of_mem _ hx, hreach⟩

lemma seek_false {next : α → List α} {goal : α} : ∀ (fuel : ℕ) (stack seen : List α),
    (∀ x ∈ seen, ∀ y ∈ next x, y ∈ seen ∨ y ∈ stack) → goal ∉ seen →
    seek next goal fuel stack seen = some false →
      ∃ closed : List α, (∀ x, x ∈ seen ∨ x ∈ stack → x ∈ closed) ∧
        (∀ x ∈ closed, ∀ y ∈ next x, y ∈ closed) ∧ goal ∉ closed := by
  intro fuel
  induction fuel with
  | zero =>
    intro stack seen hclosed hgoal h
    cases stack with
    | nil => exact ⟨seen, by simp, by simpa using hclosed, hgoal⟩
    | cons => simp [seek] at h
  | succ fuel ih =>
    intro stack seen hclosed hgoal h
    cases stack with
    | nil => exact ⟨seen, by simp, by simpa using hclosed, hgoal⟩
    | cons node stack =>
      rw [seek] at h
      split at h
      · cases h
      · rename_i hne
        split at h
        · rename_i hseen
          have hnext : ∀ x ∈ seen, ∀ y ∈ next x, y ∈ seen ∨ y ∈ stack := by
            intro x hx y hy
            rcases hclosed x hx y hy with h | h
            · exact .inl h
            · rcases List.mem_cons.mp h with rfl | h
              · exact .inl hseen
              · exact .inr h
          obtain ⟨closed, hin, hstep, hout⟩ := ih _ _ hnext hgoal h
          refine ⟨closed, fun x hx => hin x ?_, hstep, hout⟩
          rcases hx with hx | hx
          · exact .inl hx
          · rcases List.mem_cons.mp hx with rfl | hx
            · exact .inl hseen
            · exact .inr hx
        · have hnext : ∀ x ∈ node :: seen, ∀ y ∈ next x,
              y ∈ node :: seen ∨ y ∈ (next node).reverse ++ stack := by
            intro x hx y hy
            rcases List.mem_cons.mp hx with rfl | hx
            · exact .inr (List.mem_append_left _ (List.mem_reverse.mpr hy))
            · rcases hclosed x hx y hy with h | h
              · exact .inl (List.mem_cons_of_mem _ h)
              · rcases List.mem_cons.mp h with rfl | h
                · exact .inl List.mem_cons_self
                · exact .inr (List.mem_append_right _ h)
          have hgoal' : goal ∉ node :: seen := by
            rw [List.mem_cons, not_or]
            exact ⟨fun h => hne h.symm, hgoal⟩
          obtain ⟨closed, hin, hstep, hout⟩ := ih _ _ hnext hgoal' h
          refine ⟨closed, fun x hx => hin x ?_, hstep, hout⟩
          rcases hx with hx | hx
          · exact .inl (List.mem_cons_of_mem _ hx)
          · rcases List.mem_cons.mp hx with rfl | hx
            · exact .inl List.mem_cons_self
            · exact .inr (List.mem_append_right _ hx)

lemma seek_isSome {next : α → List α} {goal : α} {nodes : List α}
    (hclosed : ∀ x ∈ nodes, ∀ y ∈ next x, y ∈ nodes) :
    ∀ (fuel : ℕ) (stack seen : List α), (∀ x ∈ stack, x ∈ nodes) →
      stack.length + Digraph.pendingEdges next nodes seen ≤ fuel →
      (seek next goal fuel stack seen).isSome := by
  intro fuel
  induction fuel with
  | zero =>
    intro stack seen _ hle
    obtain rfl : stack = [] := List.length_eq_zero_iff.mp (by omega)
    rfl
  | succ fuel ih =>
    intro stack seen hstack hle
    cases stack with
    | nil => rfl
    | cons node stack =>
      have hnode := hstack node List.mem_cons_self
      have hrest := fun x hx => hstack x (List.mem_cons_of_mem _ hx)
      simp only [List.length_cons] at hle
      rw [seek]
      split
      · rfl
      · split
        · exact ih _ _ hrest (by omega)
        · rename_i hnew
          have hmark : Digraph.pendingEdges next nodes (node :: seen) + (next node).length ≤
              Digraph.pendingEdges next nodes seen := Digraph.pendingEdges_mark hnode hnew
          refine ih _ _ (fun x hx => ?_) (by
            simp only [List.length_append, List.length_reverse]
            omega)
          rcases List.mem_append.mp hx with hx | hx
          · exact hclosed node hnode x (List.mem_reverse.mp hx)
          · exact hrest x hx

/-- **The search answers whether the goal is reached**, with fuel for the start and every arc. -/
theorem seek_iff {next : α → List α} {nodes : List α} {start : α} (goal : α)
    (hclosed : ∀ x ∈ nodes, ∀ y ∈ next x, y ∈ nodes) (hstart : start ∈ nodes) {fuel : ℕ}
    (hfuel : 1 + (nodes.map fun x => (next x).length).sum ≤ fuel) :
    (seek next goal fuel [start] [] = some true ↔
      ReflTransGen (Digraph.Edge next) start goal) ∧
    (seek next goal fuel [start] []).isSome := by
  have hsome : (seek next goal fuel [start] []).isSome :=
    seek_isSome hclosed fuel _ _ (by simpa using hstart) (by
      simpa [Digraph.pendingEdges] using hfuel)
  refine ⟨⟨fun h => ?_, fun h => ?_⟩, hsome⟩
  · obtain ⟨x, hx, hreach⟩ := seek_true _ _ _ h
    rwa [List.mem_singleton.mp hx] at hreach
  · obtain ⟨b, hb⟩ := Option.isSome_iff_exists.mp hsome
    cases b with
    | true => exact hb
    | false =>
      obtain ⟨closed, hin, hstep, hout⟩ := seek_false _ _ _ (by simp) (by simp) hb
      have hreached : goal ∈ closed := by
        clear hb hout hsome
        induction h with
        | refl => exact hin start (.inr List.mem_cons_self)
        | tail _ hyz ih => exact hstep _ ih _ hyz
      exact absurd hreached hout

end OpenRig.TopologicalSort
