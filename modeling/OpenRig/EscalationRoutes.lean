import OpenRig.Digraph
import OpenRig.Escalation

/-!
Escalation routes end: what the search leaves visited is finished and resolved, and every later hop
is a step the search has taken.
-/

namespace OpenRig.Escalation

open OpenRig.Digraph Relation

/-! ### Loops that stop at the first -/

section AnyOf

variable {σ α : Type} {f g : σ → α → Option (Bool × σ)} {R : σ → σ → Prop} {P : σ → α → Prop}

lemma anyOf_false (hrefl : ∀ s, R s s) (htrans : ∀ s s' s'', R s s' → R s' s'' → R s s'')
    (hmono : ∀ s s' a, R s s' → P s a → P s' a) {l : List α}
    (hstep : ∀ a ∈ l, ∀ s s', f s a = some (false, s') → R s s' ∧ P s' a) {s s' : σ}
    (h : anyOf f s l = some (false, s')) : R s s' ∧ ∀ a ∈ l, P s' a := by
  induction l generalizing s with
  | nil =>
    obtain ⟨-, rfl⟩ := Prod.mk.inj (Option.some.inj h)
    exact ⟨hrefl s, by simp⟩
  | cons a rest ih =>
    rw [anyOf] at h
    split at h
    · rename_i s₁ hf
      obtain ⟨hR, hP⟩ := hstep a List.mem_cons_self s s₁ hf
      obtain ⟨hR', hP'⟩ := ih (fun b hb => hstep b (List.mem_cons_of_mem _ hb)) h
      refine ⟨htrans _ _ _ hR hR', fun b hb => ?_⟩
      rcases List.mem_cons.mp hb with rfl | hb
      · exact hmono _ _ _ hR' hP
      · exact hP' b hb
    · rename_i hne
      exact absurd h (hne s')

lemma anyOf_end (hrefl : ∀ s, R s s) (htrans : ∀ s s' s'', R s s' → R s' s'' → R s s'')
    {l : List α} (hstep : ∀ a ∈ l, ∀ s s', f s a = some (false, s') → R s s') {s : σ}
    {out : Option (Bool × σ)} (hout : ∀ s', out ≠ some (false, s')) (h : anyOf f s l = out) :
    ∃ a ∈ l, ∃ s₀, R s s₀ ∧ f s₀ a = out := by
  induction l generalizing s with
  | nil => exact absurd h.symm (hout s)
  | cons a rest ih =>
    rw [anyOf] at h
    split at h
    · rename_i s₁ hf
      have hR := hstep a List.mem_cons_self s s₁ hf
      obtain ⟨b, hb, s₀, hR', hf'⟩ := ih (fun b hb => hstep b (List.mem_cons_of_mem _ hb)) h
      exact ⟨b, List.mem_cons_of_mem _ hb, s₀, htrans _ _ _ hR hR', hf'⟩
    · exact ⟨a, List.mem_cons_self, s, hrefl s, h⟩

lemma anyOf_mono {l : List α} (hfg : ∀ a ∈ l, ∀ s out, f s a = some out → g s a = some out) {s : σ}
    {out : Bool × σ} (h : anyOf f s l = some out) : anyOf g s l = some out := by
  induction l generalizing s with
  | nil => exact h
  | cons a rest ih =>
    have ih' := fun {s} => ih (s := s) fun b hb => hfg b (List.mem_cons_of_mem _ hb)
    rw [anyOf] at h ⊢
    cases hf : f s a with
    | none =>
      rw [hf] at h
      cases h
    | some r =>
      rw [hfg a List.mem_cons_self s r hf]
      rw [hf] at h
      obtain ⟨_ | _, s₁⟩ := r
      · exact ih' h
      · exact h

end AnyOf

variable {ι : Type} [LinearOrder ι] (t : Topology ι)

/-! ### Steps -/

/-- The seats that may be next after a seat. -/
def followers (id : ι) : List ι := (next t id).flatten.map (·.id)

/-- One hop: to a declared parent, or from a seat without one along an escalation edge. -/
abbrev Follows : ι → ι → Prop := Edge (followers t)

/-- A seat has at most one edge to follow, and it leads to one seat. -/
def Resolved (id : ι) : Prop :=
  (next t id).length ≤ 1 ∧ ∀ matched ∈ next t id, matched.length = 1

/-- `parent` delegates to `id`. -/
def Delegates (parent id : ι) : Prop :=
  ∃ e ∈ t.edges, e.kind = .delegatesTo ∧ e.sourceId = parent ∧ e.targetId = some id

variable {t}

lemma follows_of_mem {id : ι} {matched : List (Seat ι)} {seat : Seat ι} (h : matched ∈ next t id)
    (hseat : seat ∈ matched) : Follows t id seat.id :=
  List.mem_map.mpr ⟨seat, List.mem_flatten.mpr ⟨matched, h, hseat⟩, rfl⟩

/-! ### What a search keeps -/

/-- What is visited is finished and, unless something unknown was met, resolved. -/
def Ready (t : Topology ι) (s : Search ι) : Prop :=
  Finished (followers t) s.visited ∧ (s.unknown = false → ∀ v ∈ s.visited, Resolved t v)

/-- A part of a search that found no cycle. -/
structure Grown (t : Topology ι) (s s' : Search ι) : Prop where
  visiting : s'.visiting = s.visiting
  visited : s.visited ⊆ s'.visited
  unknown : s'.unknown = false → s.unknown = false
  ready : Ready t s → Ready t s'

lemma Grown.refl (s : Search ι) : Grown t s s := ⟨rfl, List.Subset.refl _, id, id⟩

lemma Grown.trans {s s' s'' : Search ι} (h : Grown t s s') (h' : Grown t s' s'') : Grown t s s'' :=
  ⟨h'.visiting.trans h.visiting, List.Subset.trans h.visited h'.visited,
    fun hu => h.unknown (h'.unknown hu), fun hr => h'.ready (h.ready hr)⟩

/-- An edge to follow has been searched. -/
def Searched (s : Search ι) (matched : List (Seat ι)) : Prop :=
  (∀ seat ∈ matched, seat.id ∈ s.visited) ∧ (s.unknown = false → matched.length = 1)

lemma Searched.grown {s s' : Search ι} {matched : List (Seat ι)} (h : Grown t s s')
    (hs : Searched s matched) : Searched s' matched :=
  ⟨fun seat hseat => h.visited (hs.1 seat hseat), fun hu => hs.2 (h.unknown hu)⟩

lemma grown_unknown (s : Search ι) (visiting : List ι) (b : Bool) :
    Grown t ⟨visiting, s.visited, s.unknown⟩ ⟨visiting, s.visited, s.unknown || b⟩ where
  visiting := rfl
  visited := List.Subset.refl _
  unknown hu := (Bool.or_eq_false_iff.mp hu).1
  ready hr := ⟨hr.1, fun hu => hr.2 (Bool.or_eq_false_iff.mp hu).1⟩

variable (t) in
/-- The loop over the seats one edge may lead to. -/
def visit (fuel : ℕ) (s : Search ι) (matched : List (Seat ι)) : Option (Bool × Search ι) :=
  anyOf (fun s seat => cyclic t fuel s seat.id)
    { s with unknown := s.unknown || matched.length != 1 } matched

variable (t) in
/-- The search as a seat turns to its edges. -/
def start (s : Search ι) (id : ι) : Search ι :=
  ⟨id :: s.visiting, s.visited, s.unknown || decide (1 < (next t id).length)⟩

lemma cyclic_of_visiting (fuel : ℕ) {s : Search ι} {id : ι} (h : id ∈ s.visiting) :
    cyclic t fuel s id = some (true, s) := by
  unfold cyclic
  rw [if_pos h]

lemma cyclic_of_visited (fuel : ℕ) {s : Search ι} {id : ι} (h : id ∉ s.visiting)
    (h' : id ∈ s.visited) : cyclic t fuel s id = some (false, s) := by
  unfold cyclic
  rw [if_neg h, if_pos h']

lemma cyclic_zero {s : Search ι} {id : ι} (h : id ∉ s.visiting) (h' : id ∉ s.visited) :
    cyclic t 0 s id = none := by
  unfold cyclic
  rw [if_neg h, if_neg h']

lemma cyclic_succ (fuel : ℕ) {s : Search ι} {id : ι} (h : id ∉ s.visiting) (h' : id ∉ s.visited) :
    cyclic t (fuel + 1) s id =
      match anyOf (visit t fuel) (start t s id) (next t id) with
      | some (false, s) => some (false, ⟨s.visiting.erase id, id :: s.visited, s.unknown⟩)
      | out => out := by
  rw [cyclic]
  rw [if_neg h, if_neg h']
  rfl

lemma grown_visit {fuel : ℕ}
    (ih : ∀ {s s' : Search ι} {id : ι}, cyclic t fuel s id = some (false, s') →
      Grown t s s' ∧ id ∈ s'.visited) {s s' : Search ι} {matched : List (Seat ι)}
    (h : visit t fuel s matched = some (false, s')) : Grown t s s' ∧ Searched s' matched := by
  obtain ⟨hgrown, hvisited⟩ := anyOf_false (P := fun s seat => seat.id ∈ s.visited) Grown.refl
    (fun _ _ _ => Grown.trans) (fun _ _ _ hg hmem => hg.visited hmem)
    (fun seat _ s s' hc => ih hc) h
  refine ⟨(grown_unknown s s.visiting _).trans hgrown, hvisited, fun hu => ?_⟩
  have hlength := (Bool.or_eq_false_iff.mp (hgrown.unknown hu)).2
  simpa using hlength

lemma grown_finish {s s₁ : Search ι} {id : ι} (hv : id ∉ s.visiting)
    (hgrown : Grown t (start t s id) s₁) (hsearched : ∀ matched ∈ next t id, Searched s₁ matched) :
    Grown t s ⟨s₁.visiting.erase id, id :: s₁.visited, s₁.unknown⟩ where
  visiting := by
    rw [hgrown.visiting]
    exact List.erase_cons_head ..
  visited := fun v hmem => List.mem_cons_of_mem _ (hgrown.visited hmem)
  unknown := fun hu => (Bool.or_eq_false_iff.mp (hgrown.unknown hu)).1
  ready := fun hr => by
    have hready := hgrown.ready ((grown_unknown s (id :: s.visiting) _).ready hr)
    have hfollowers : ∀ y ∈ followers t id, y ∈ s₁.visited := fun y hy => by
      obtain ⟨seat, hseat, rfl⟩ := List.mem_map.mp hy
      obtain ⟨matched, hmatched, hseat⟩ := List.mem_flatten.mp hseat
      exact (hsearched matched hmatched).1 seat hseat
    refine ⟨⟨hfollowers, hready.1⟩, fun hu v hmem => ?_⟩
    rcases List.mem_cons.mp hmem with rfl | hmem
    · have hlength := (Bool.or_eq_false_iff.mp (hgrown.unknown hu)).2
      exact ⟨by simpa using hlength, fun matched hmatched => (hsearched matched hmatched).2 hu⟩
    · exact hready.2 hu v hmem

/-- **A search that finds no cycle** leaves its seat visited. -/
lemma grown_cyclic (fuel : ℕ) {s s' : Search ι} {id : ι}
    (h : cyclic t fuel s id = some (false, s')) : Grown t s s' ∧ id ∈ s'.visited := by
  induction fuel generalizing s s' id with
  | zero =>
    by_cases hv : id ∈ s.visiting
    · rw [cyclic_of_visiting 0 hv] at h
      cases h
    · by_cases hv' : id ∈ s.visited
      · rw [cyclic_of_visited 0 hv hv'] at h
        cases h
        exact ⟨.refl _, hv'⟩
      · rw [cyclic_zero hv hv'] at h
        cases h
  | succ fuel ih =>
    by_cases hv : id ∈ s.visiting
    · rw [cyclic_of_visiting _ hv] at h
      cases h
    · by_cases hv' : id ∈ s.visited
      · rw [cyclic_of_visited _ hv hv'] at h
        cases h
        exact ⟨.refl _, hv'⟩
      · rw [cyclic_succ fuel hv hv'] at h
        split at h
        · rename_i s₁ hloop
          cases h
          obtain ⟨hgrown, hsearched⟩ := anyOf_false (P := Searched) Grown.refl
            (fun _ _ _ => Grown.trans) (fun _ _ _ => Searched.grown)
            (fun matched _ s s₁ (hvisit : visit t fuel s matched = some (false, s₁)) =>
              grown_visit ih hvisit) hloop
          exact ⟨grown_finish hv hgrown hsearched, List.mem_cons_self⟩
        · rename_i hne
          exact absurd h (hne s')

/-- **A search that finds a cycle** has one before it. -/
lemma cycle_of_cyclic (fuel : ℕ) {s s' : Search ι} {id : ι}
    (h : cyclic t fuel s id = some (true, s'))
    (hpath : ∀ v ∈ s.visiting, TransGen (Follows t) v id) :
    ∃ x, ReflTransGen (Follows t) id x ∧ TransGen (Follows t) x x := by
  induction fuel generalizing s s' id with
  | zero =>
    by_cases hv : id ∈ s.visiting
    · exact ⟨id, .refl, hpath id hv⟩
    · by_cases hv' : id ∈ s.visited
      · rw [cyclic_of_visited 0 hv hv'] at h
        cases h
      · rw [cyclic_zero hv hv'] at h
        cases h
  | succ fuel ih =>
    by_cases hv : id ∈ s.visiting
    · exact ⟨id, .refl, hpath id hv⟩
    · by_cases hv' : id ∈ s.visited
      · rw [cyclic_of_visited _ hv hv'] at h
        cases h
      · rw [cyclic_succ fuel hv hv'] at h
        have hloop : anyOf (visit t fuel) (start t s id) (next t id) = some (true, s') := by
          split at h
          · cases h
          · exact h
        -- the edge and the seat behind which the cycle lies
        obtain ⟨matched, hmatched, s₀, hgrown, hvisit⟩ := anyOf_end (R := Grown t) Grown.refl
          (fun _ _ _ => Grown.trans)
          (fun matched _ s s₁ (hvisit : visit t fuel s matched = some (false, s₁)) =>
            (grown_visit (grown_cyclic fuel) hvisit).1) (by simp) hloop
        obtain ⟨seat, hseat, s₁, hgrown', hcyclic⟩ := anyOf_end (R := Grown t) Grown.refl
          (fun _ _ _ => Grown.trans) (fun seat _ s s₁ hc => (grown_cyclic fuel hc).1)
            (by simp) hvisit
        have hstep : Follows t id seat.id := follows_of_mem hmatched hseat
        have hvisiting : s₁.visiting = id :: s.visiting :=
          hgrown'.visiting.trans hgrown.visiting
        obtain ⟨x, hx, hcycle⟩ := ih hcyclic fun v hmem => by
          rw [hvisiting] at hmem
          rcases List.mem_cons.mp hmem with rfl | hmem
          · exact .single hstep
          · exact .tail (hpath v hmem) hstep
        exact ⟨x, .head hstep hx, hcycle⟩

/-- **The search ends**: the seats it is visiting are distinct. -/
lemma cyclic_ne_none {nodes : List ι} (hnodes : ∀ x y, Follows t x y → y ∈ nodes) (fuel : ℕ)
    {s : Search ι} {id : ι} (hid : id ∈ nodes) (hnodup : s.visiting.Nodup)
    (hsub : ∀ v ∈ s.visiting, v ∈ nodes) (hfuel : nodes.length ≤ fuel + s.visiting.length) :
    cyclic t fuel s id ≠ none := by
  induction fuel generalizing s id with
  | zero =>
    intro h
    by_cases hv : id ∈ s.visiting
    · rw [cyclic_of_visiting 0 hv] at h
      cases h
    · have hlength := length_le_of_nodup (List.nodup_cons.mpr ⟨hv, hnodup⟩)
        (show ∀ v ∈ id :: s.visiting, v ∈ nodes by simpa using ⟨hid, hsub⟩)
      rw [List.length_cons] at hlength
      omega
  | succ fuel ih =>
    intro h
    by_cases hv : id ∈ s.visiting
    · rw [cyclic_of_visiting _ hv] at h
      cases h
    · by_cases hv' : id ∈ s.visited
      · rw [cyclic_of_visited _ hv hv'] at h
        cases h
      · rw [cyclic_succ fuel hv hv'] at h
        have hloop : anyOf (visit t fuel) (start t s id) (next t id) = none := by
          split at h
          · cases h
          · exact h
        obtain ⟨matched, hmatched, s₀, hgrown, hvisit⟩ := anyOf_end (R := Grown t) Grown.refl
          (fun _ _ _ => Grown.trans)
          (fun matched _ s s₁ (hvisit : visit t fuel s matched = some (false, s₁)) =>
            (grown_visit (grown_cyclic fuel) hvisit).1) (by simp) hloop
        obtain ⟨seat, hseat, s₁, hgrown', hcyclic⟩ := anyOf_end (R := Grown t) Grown.refl
          (fun _ _ _ => Grown.trans) (fun seat _ s s₁ hc => (grown_cyclic fuel hc).1)
            (by simp) hvisit
        have hvisiting : s₁.visiting = id :: s.visiting :=
          hgrown'.visiting.trans hgrown.visiting
        refine ih (hnodes _ _ (follows_of_mem hmatched hseat)) ?_ ?_ ?_ hcyclic
        · rw [hvisiting]
          exact List.nodup_cons.mpr ⟨hv, hnodup⟩
        · rw [hvisiting]
          simpa using ⟨hid, hsub⟩
        · rw [hvisiting, List.length_cons]
          omega

lemma cyclic_mono (fuel : ℕ) {s : Search ι} {id : ι} {out : Bool × Search ι}
    (h : cyclic t fuel s id = some out) : cyclic t (fuel + 1) s id = some out := by
  induction fuel generalizing s id out with
  | zero =>
    by_cases hv : id ∈ s.visiting
    · rwa [cyclic_of_visiting _ hv] at h ⊢
    · by_cases hv' : id ∈ s.visited
      · rwa [cyclic_of_visited _ hv hv'] at h ⊢
      · rw [cyclic_zero hv hv'] at h
        cases h
  | succ fuel ih =>
    by_cases hv : id ∈ s.visiting
    · rwa [cyclic_of_visiting _ hv] at h ⊢
    · by_cases hv' : id ∈ s.visited
      · rwa [cyclic_of_visited _ hv hv'] at h ⊢
      · rw [cyclic_succ _ hv hv'] at h ⊢
        have hmono : ∀ {r}, anyOf (visit t fuel) (start t s id) (next t id) = some r →
            anyOf (visit t (fuel + 1)) (start t s id) (next t id) = some r := fun hr =>
          anyOf_mono (fun matched _ s r hvisit => anyOf_mono (fun seat _ s r hc => ih hc) hvisit) hr
        cases hloop : anyOf (visit t fuel) (start t s id) (next t id) with
        | none =>
          rw [hloop] at h
          cases h
        | some r =>
          rw [hloop] at h
          rw [hmono hloop]
          exact h

lemma cyclic_le {fuel fuel' : ℕ} (hle : fuel ≤ fuel') {s : Search ι} {id : ι}
    {out : Bool × Search ι} (h : cyclic t fuel s id = some out) :
    cyclic t fuel' s id = some out := by
  induction hle with
  | refl => exact h
  | step _ ih => exact cyclic_mono _ ih

/-! ### The destination -/

/-- The one seat that a source without a declared parent escalates to. -/
structure Destination (t : Topology ι) (source : ι) (target : Seat ι) : Prop where
  parents : parents t source = []
  named : ∃ arc, declared t source = [arc] ∧ endpoints t arc = [target]
  other : target.id ≠ source

lemma Destination.next {source : ι} {target : Seat ι} (h : Destination t source target) :
    next t source = [[target]] := by
  obtain ⟨arc, harc, htarget⟩ := h.named
  rw [Escalation.next, if_neg (not_not.mpr h.parents), harc, List.map_singleton, htarget]

lemma Destination.follows {source : ι} {target : Seat ι} (h : Destination t source target) :
    Follows t source target.id :=
  follows_of_mem (h.next ▸ List.mem_singleton_self _) (List.mem_singleton_self _)

lemma parents_eq_nil {source : ι} :
    parents t source = [] ↔
      t.edges.any (fun e => e.targetId = some source && e.kind = .delegatesTo) = false := by
  unfold parents arcs
  rw [List.filter_filter, List.filter_eq_nil_iff, List.any_eq_false]
  refine forall₂_congr fun e _ => ?_
  cases e.kind <;> simp

/-- What the search for a destination ends in. -/
inductive Ends (t : Topology ι) (fuel : ℕ) (session : String)
    (acceptsDestination : Option (String → Bool)) (o : EscalationOwner) : Prop
  | unrecorded : resolveSessionNodeId t session = none → o.outcome = .none →
      o.owner = defaultResolveOrchestrator t session → Ends t fuel session acceptsDestination o
  | parent {source : ι} : resolveSessionNodeId t session = some source → o.outcome = .parent →
      o.owner = defaultResolveOrchestrator t session → Ends t fuel session acceptsDestination o
  | refused : o.owner = none → o.outcome ≠ .routed → o.outcome ≠ .cycle →
      Ends t fuel session acceptsDestination o
  | cycle {source : ι} {target : Seat ι} {s : Search ι} :
      resolveSessionNodeId t session = some source → Destination t source target →
      cyclic t fuel ⟨[source], [], false⟩ target.id = some (true, s) → o.owner = none →
      o.outcome = .cycle → Ends t fuel session acceptsDestination o
  | admitted {source : ι} {target : Seat ι} {s : Search ι} :
      resolveSessionNodeId t session = some source → Destination t source target →
      cyclic t fuel ⟨[source], [], false⟩ target.id = some (false, s) → s.unknown = false →
      o = admitTarget session target acceptsDestination → Ends t fuel session acceptsDestination o

lemma ends_of_resolve {fuel : ℕ} {session : String} {acceptsDestination : Option (String → Bool)}
    {o : EscalationOwner} (h : resolveEscalationOwner t fuel session acceptsDestination = some o) :
    Ends t fuel session acceptsDestination o := by
  unfold resolveEscalationOwner at h
  dsimp only at h
  split at h
  · rename_i hsource
    obtain rfl := Option.some.inj h
    exact .unrecorded hsource rfl rfl
  · rename_i source hsource
    split at h
    · obtain rfl := Option.some.inj h
      exact .parent hsource rfl rfl
    rename_i hparents
    split at h
    · obtain rfl := Option.some.inj h
      exact .refused rfl (by simp) (by simp)
    split at h
    · obtain rfl := Option.some.inj h
      exact .refused rfl (by simp) (by simp)
    · rename_i arc harc
      split at h
      · obtain rfl := Option.some.inj h
        exact .refused rfl (by simp [fail]) (by simp [fail])
      · rename_i target htarget
        split at h
        · obtain rfl := Option.some.inj h
          exact .refused rfl (by simp [fail]) (by simp [fail])
        rename_i hother
        have hdest : Destination t source target :=
          ⟨parents_eq_nil.mpr (by simpa using hparents), ⟨arc, harc, htarget⟩, hother⟩
        split at h
        · cases h
        · rename_i s hcyclic
          obtain rfl := Option.some.inj h
          exact .cycle hsource hdest hcyclic rfl rfl
        · rename_i s hcyclic
          split at h
          · obtain rfl := Option.some.inj h
            exact .refused rfl (by simp [fail]) (by simp [fail])
          · rename_i hunknown
            exact .admitted hsource hdest hcyclic (by simpa using hunknown)
              (Option.some.inj h).symm
      · obtain rfl := Option.some.inj h
        exact .refused rfl (by simp [fail]) (by simp [fail])
    · obtain rfl := Option.some.inj h
      exact .refused rfl (by simp [fail]) (by simp [fail])

omit [LinearOrder ι] in
lemma admit_cases (session : String) (target : Seat ι)
    (acceptsDestination : Option (String → Bool)) :
    ((admitTarget session target acceptsDestination).owner = none ∧
      (admitTarget session target acceptsDestination).outcome = .unavailable) ∨
    ∃ name, target.sessionName = some name ∧
      (admitTarget session target acceptsDestination).owner = some name ∧
      (admitTarget session target acceptsDestination).outcome = .routed ∧
      (target.status = some .running ∨ target.status = some .idle) := by
  unfold admitTarget
  split
  · rename_i name hname
    split
    · exact .inl ⟨rfl, rfl⟩
    · rename_i hstatus
      split
      · exact .inl ⟨rfl, rfl⟩
      · exact .inr ⟨name, hname, rfl, rfl, not_not.mp (not_or.mp hstatus).2⟩
  · exact .inl ⟨rfl, rfl⟩

/-! ### What lies behind a destination -/

/-- Nothing that follows from a seat comes back, and every edge on the way leads to one seat. -/
def Clear (t : Topology ι) (id : ι) : Prop :=
  ∀ x, ReflTransGen (Follows t) id x → ¬ TransGen (Follows t) x x ∧ Resolved t x

/-- **A search that ends without a cycle and without unknowns clears the destination.** -/
lemma clear_of_cyclic {fuel : ℕ} {source id : ι} {s : Search ι}
    (h : cyclic t fuel ⟨[source], [], false⟩ id = some (false, s)) (hunknown : s.unknown = false) :
    Clear t id ∧ Acc (fun y x => Follows t x y) id := by
  obtain ⟨hgrown, hid⟩ := grown_cyclic fuel h
  obtain ⟨hfinished, hresolved⟩ := hgrown.ready ⟨trivial, by simp⟩
  refine ⟨fun x hx => ?_, hfinished.acc hid⟩
  have hmem := hfinished.reaches hid hx
  exact ⟨hfinished.irrefl hmem, hresolved hunknown x hmem⟩

lemma cycle_of_destination {fuel : ℕ} {source : ι} {target : Seat ι} {s : Search ι}
    (hdest : Destination t source target)
    (h : cyclic t fuel ⟨[source], [], false⟩ target.id = some (true, s)) :
    ∃ x, ReflTransGen (Follows t) source x ∧ TransGen (Follows t) x x := by
  obtain ⟨x, hx, hcycle⟩ := cycle_of_cyclic fuel h fun v hv => by
    obtain rfl : v = source := by simpa using hv
    exact .single hdest.follows
  exact ⟨x, .head hdest.follows hx, hcycle⟩

/-! ### The resolver ends -/

lemma seat_of_mem_next {id : ι} {matched : List (Seat ι)} (h : matched ∈ next t id) {seat : Seat ι}
    (hseat : seat ∈ matched) : seat ∈ seats t := by
  have hendpoints : ∀ arc, seat ∈ endpoints t arc → seat ∈ seats t := fun arc hmem => by
    unfold endpoints at hmem
    split at hmem
    · dsimp only at hmem
      split at hmem
      · exact (List.mem_filter.mp hmem).1
      · exact (List.mem_filter.mp hmem).1
    · exact (List.mem_filter.mp hmem).1
  unfold next at h
  split at h
  · obtain ⟨a, -, rfl⟩ := List.mem_map.mp h
    exact (List.mem_filter.mp hseat).1
  · obtain ⟨a, -, rfl⟩ := List.mem_map.mp h
    exact hendpoints a hseat

lemma mem_seats_of_follows {x y : ι} (h : Follows t x y) : y ∈ (seats t).map (·.id) := by
  obtain ⟨seat, hseat, rfl⟩ := List.mem_map.mp h
  obtain ⟨matched, hmatched, hseat⟩ := List.mem_flatten.mp hseat
  exact List.mem_map_of_mem (seat_of_mem_next hmatched hseat)

lemma cyclic_destination_ne_none {fuel : ℕ} (hfuel : (seats t).length ≤ fuel) {source : ι}
    {target : Seat ι} (hdest : Destination t source target) :
    cyclic t fuel ⟨[source], [], false⟩ target.id ≠ none := by
  refine cyclic_ne_none (fun x y h => List.mem_cons_of_mem source (mem_seats_of_follows h)) fuel
    (List.mem_cons_of_mem _ (mem_seats_of_follows hdest.follows)) (List.nodup_singleton _)
    (by simp) ?_
  simp only [List.length_cons, List.length_map, List.length_nil]
  omega

lemma resolve_congr {fuel fuel' : ℕ} {session : String}
    {acceptsDestination : Option (String → Bool)}
    (h : ∀ source target, Destination t source target →
      cyclic t fuel ⟨[source], [], false⟩ target.id =
        cyclic t fuel' ⟨[source], [], false⟩ target.id) :
    resolveEscalationOwner t fuel session acceptsDestination =
      resolveEscalationOwner t fuel' session acceptsDestination := by
  unfold resolveEscalationOwner
  dsimp only
  split
  · rfl
  split
  · rfl
  rename_i hparents
  split
  · rfl
  split
  · rfl
  · rename_i arc harc
    split
    · rfl
    · rename_i target htarget
      split
      · rfl
      rename_i hother
      rw [h _ target ⟨parents_eq_nil.mpr (by simpa using hparents), ⟨arc, harc, htarget⟩, hother⟩]
    · rfl
  · rfl

lemma resolve_ne_none {fuel : ℕ} (hfuel : (seats t).length ≤ fuel) (session : String)
    (acceptsDestination : Option (String → Bool)) :
    resolveEscalationOwner t fuel session acceptsDestination ≠ none := by
  unfold resolveEscalationOwner
  dsimp only
  split
  · simp
  split
  · simp
  rename_i hparents
  split
  · simp
  split
  · simp
  · rename_i arc harc
    split
    · simp
    · rename_i target htarget
      split
      · simp
      rename_i hother
      split
      · rename_i hcyclic
        exact absurd hcyclic (cyclic_destination_ne_none hfuel
          ⟨parents_eq_nil.mpr (by simpa using hparents), ⟨arc, harc, htarget⟩, hother⟩)
      · simp
      · split <;> simp
    · simp
  · simp

/-- **The resolver ends**, with one answer for all fuel from one unit a seat. -/
lemma resolve_terminates (t : Topology ι) (session : String)
    (acceptsDestination : Option (String → Bool)) :
    ∃ o, ∀ fuel, (seats t).length ≤ fuel →
      resolveEscalationOwner t fuel session acceptsDestination = some o := by
  obtain ⟨o, ho⟩ := Option.ne_none_iff_exists'.mp
    (resolve_ne_none (t := t) (le_refl _) session acceptsDestination)
  refine ⟨o, fun fuel hfuel => ho ▸ (resolve_congr fun source target hdest => ?_).symm⟩
  obtain ⟨out, hout⟩ := Option.ne_none_iff_exists'.mp
    (cyclic_destination_ne_none (t := t) (le_refl _) hdest)
  rw [hout, cyclic_le hfuel hout]

/-! ### Hops -/

/-- Each session name belongs to one node. -/
def NamesUnique (t : Topology ι) : Prop :=
  ∀ a ∈ t.sessions, ∀ b ∈ t.sessions, a.sessionName = b.sessionName → a.nodeId = b.nodeId

lemma latest_mem {rows : List (Session ι)} {s : Session ι} (h : latest rows = some s) :
    s ∈ rows :=
  List.argmax_mem h

lemma resolve_sessionName (hnames : NamesUnique t) {s : Session ι} (hs : s ∈ t.sessions) :
    resolveSessionNodeId t s.sessionName = some s.nodeId := by
  have hmem : s ∈ t.sessions.filter (·.sessionName = s.sessionName) := by simpa using hs
  cases hlatest : latest (t.sessions.filter (·.sessionName = s.sessionName)) with
  | none =>
    have hnil := List.argmax_eq_none.mp hlatest
    rw [hnil] at hmem
    cases hmem
  | some s' =>
    obtain ⟨hs', hname⟩ := List.mem_filter.mp (latest_mem hlatest)
    have hnode := hnames s' hs' s hs (by simpa using hname)
    rw [resolveSessionNodeId, hlatest, Option.map_some, Option.some_or, hnode]

lemma session_of_seat {seat : Seat ι} (h : seat ∈ seats t) {name : String}
    (hname : seat.sessionName = some name) :
    ∃ s ∈ t.sessions, s.sessionName = name ∧ s.nodeId = seat.id := by
  obtain ⟨n, -, h⟩ := List.mem_flatMap.mp h
  obtain ⟨r, -, rfl⟩ := List.mem_map.mp h
  obtain ⟨s, hs, rfl⟩ := Option.map_eq_some_iff.mp hname
  obtain ⟨hs, hnode⟩ := List.mem_filter.mp (latest_mem hs)
  exact ⟨s, hs, rfl, by simpa using hnode⟩

lemma orchestrator_spec {session name : String}
    (h : defaultResolveOrchestrator t session = some name) :
    ∃ x, resolveSessionNodeId t session = some x ∧
      ∃ s ∈ t.sessions, s.sessionName = name ∧ Delegates t s.nodeId x := by
  obtain ⟨x, hx, h⟩ := Option.bind_eq_some_iff.mp h
  obtain ⟨s, hs, rfl⟩ := Option.map_eq_some_iff.mp h
  obtain ⟨e, he, hs⟩ := List.mem_flatMap.mp (List.argmax_mem hs)
  obtain ⟨he, hedge⟩ := List.mem_filter.mp he
  obtain ⟨hs, hnode⟩ := List.mem_filter.mp hs
  simp only [Bool.and_eq_true, decide_eq_true_eq] at hedge hnode
  exact ⟨x, hx, s, hs, rfl, e, he, hedge.2, hnode.symm, hedge.1⟩

/-- What an owner is to a seat: a parent, or the cleared destination of a seat without one. -/
def Hop (t : Topology ι) (x y : ι) : Prop :=
  Delegates t y x ∨ Follows t x y ∧ Clear t y ∧ Acc (fun y x => Follows t x y) y

/-- **Every owner is a hop away.** -/
lemma hop_of_owner (hnames : NamesUnique t) {fuel : ℕ} {session name : String}
    {acceptsDestination : Option (String → Bool)} {o : EscalationOwner}
    (h : resolveEscalationOwner t fuel session acceptsDestination = some o)
    (howner : o.owner = some name) :
    ∃ x y, resolveSessionNodeId t session = some x ∧ resolveSessionNodeId t name = some y ∧
      Hop t x y := by
  have horchestrator : o.owner = defaultResolveOrchestrator t session →
      ∃ x y, resolveSessionNodeId t session = some x ∧ resolveSessionNodeId t name = some y ∧
        Hop t x y := fun heq => by
    obtain ⟨x, hx, s, hs, rfl, hdelegates⟩ := orchestrator_spec (heq.symm.trans howner)
    exact ⟨x, s.nodeId, hx, resolve_sessionName hnames hs, .inl hdelegates⟩
  cases ends_of_resolve h with
  | unrecorded _ _ heq => exact horchestrator heq
  | parent _ _ heq => exact horchestrator heq
  | refused hnone _ _ =>
    rw [hnone] at howner
    cases howner
  | cycle _ _ _ hnone _ =>
    rw [hnone] at howner
    cases howner
  | @admitted source target s hsource hdest hcyclic hunknown heq =>
    subst heq
    obtain ⟨hnone, -⟩ | ⟨name', hname, howner', -, -⟩ :=
      admit_cases session target acceptsDestination
    · rw [hnone] at howner
      cases howner
    · obtain rfl := Option.some.inj (howner'.symm.trans howner)
      obtain ⟨matched, hmatched⟩ : ∃ matched, matched ∈ next t source ∧ target ∈ matched :=
        ⟨[target], hdest.next ▸ List.mem_singleton_self _, List.mem_singleton_self _⟩
      obtain ⟨s', hs', rfl, hnode⟩ :=
        session_of_seat (seat_of_mem_next hmatched.1 hmatched.2) hname
      refine ⟨source, target.id, hsource, hnode ▸ resolve_sessionName hnames hs', .inr ?_⟩
      exact ⟨hdest.follows, clear_of_cyclic hcyclic hunknown⟩

lemma follows_of_delegates {x y : ι} (hresolved : Resolved t x) (h : Delegates t y x) :
    Follows t x y := by
  obtain ⟨e, he, hkind, rfl, htarget⟩ := h
  have hparent : e ∈ parents t x := by
    simp [parents, arcs, he, hkind, htarget]
  have hmatched : (seats t).filter (·.id = e.sourceId) ∈ next t x := by
    rw [next, if_pos (List.ne_nil_of_mem hparent)]
    exact List.mem_map.mpr ⟨e, hparent, rfl⟩
  obtain ⟨seat, hseat⟩ := List.length_eq_one_iff.mp (hresolved.2 _ hmatched)
  have hmem : seat ∈ (seats t).filter (·.id = e.sourceId) := hseat ▸ List.mem_singleton_self _
  have hid : seat.id = e.sourceId := by simpa using (List.mem_filter.mp hmem).2
  exact hid ▸ follows_of_mem hmatched hmem

lemma Hop.follows {x y : ι} (h : Hop t x y) (hresolved : Resolved t x) : Follows t x y :=
  h.elim (follows_of_delegates hresolved) (·.1)

lemma no_hops_of_acc {x : ℕ → ι} (hhops : ∀ n, Hop t (x n) (x (n + 1))) {a : ι}
    (hacc : Acc (fun y x => Follows t x y) a) (n : ℕ) (hn : x n = a) (hclear : Clear t a) :
    False := by
  induction hacc generalizing n with
  | intro a _ ih =>
    subst hn
    have hstep := (hhops n).follows (hclear _ .refl).2
    exact ih _ hstep (n + 1) rfl fun y hy => hclear y (.head hstep hy)

lemma no_parents_forever (hacyclic : ∀ x, ¬ TransGen (Delegates t) x x) {x : ℕ → ι}
    (h : ∀ n, Delegates t (x (n + 1)) (x n)) : False := by
  have hsource : ∀ n, x (n + 1) ∈ t.edges.map (·.sourceId) := fun n => by
    obtain ⟨e, he, -, hsource, -⟩ := h n
    exact hsource ▸ List.mem_map_of_mem he
  have hup : ∀ m k, TransGen (Delegates t) (x (m + k + 1)) (x m) := fun m k => by
    induction k with
    | zero => exact .single (h m)
    | succ k ih => exact .head (h (m + k + 1)) ih
  obtain ⟨i, j, hij, heq⟩ := Finite.exists_ne_map_eq_of_infinite
    fun n => (⟨x (n + 1), List.mem_toFinset.mpr (hsource n)⟩ : (t.edges.map (·.sourceId)).toFinset)
  have heq : x (i + 1) = x (j + 1) := congrArg Subtype.val heq
  rcases Nat.lt_or_gt_of_ne hij with hlt | hlt
  · obtain ⟨k, rfl⟩ := Nat.exists_eq_add_of_lt hlt
    have hcycle := hup (i + 1) k
    rw [show i + 1 + k + 1 = i + k + 1 + 1 by omega, ← heq] at hcycle
    exact hacyclic _ hcycle
  · obtain ⟨k, rfl⟩ := Nat.exists_eq_add_of_lt hlt
    have hcycle := hup (j + 1) k
    rw [show j + 1 + k + 1 = j + k + 1 + 1 by omega, heq] at hcycle
    exact hacyclic _ hcycle

/-- **No chain of owners goes on forever.** -/
lemma no_owners_forever (hnames : NamesUnique t) (hacyclic : ∀ x, ¬ TransGen (Delegates t) x x)
    (chain : ℕ → String)
    (h : ∀ n, ∃ fuel acceptsDestination o,
      resolveEscalationOwner t fuel (chain n) acceptsDestination = some o ∧
        o.owner = some (chain (n + 1))) : False := by
  have hhop : ∀ n, ∃ x y, resolveSessionNodeId t (chain n) = some x ∧
      resolveSessionNodeId t (chain (n + 1)) = some y ∧ Hop t x y := fun n => by
    obtain ⟨fuel, accepts, o, ho, howner⟩ := h n
    exact hop_of_owner hnames ho howner
  choose x y hx hy hhops using hhop
  have hxy : ∀ n, y n = x (n + 1) := fun n => Option.some.inj ((hy n).symm.trans (hx (n + 1)))
  have hhops : ∀ n, Hop t (x n) (x (n + 1)) := fun n => hxy n ▸ hhops n
  by_cases hrouted : ∃ n, Clear t (x (n + 1)) ∧ Acc (fun y x => Follows t x y) (x (n + 1))
  · obtain ⟨n, hclear, hacc⟩ := hrouted
    exact no_hops_of_acc hhops hacc (n + 1) rfl hclear
  · refine no_parents_forever hacyclic fun n => (hhops n).resolve_right fun hroute => ?_
    exact hrouted ⟨n, hroute.2⟩

/-! ### The route -/

/-- **The escalation route never loops**: the resolver ends; an owner it routes to is the one seat
that the source's one escalation edge names, runs or is idle, and nothing that follows from it
comes back or is unresolved; owners of owners end; and a cycle is reported where there is one. -/
theorem escalation_route_ends (t : Topology ι) (hnames : NamesUnique t)
    (hacyclic : ∀ x, ¬ TransGen (Delegates t) x x) :
    (∀ session acceptsDestination, ∃ o, ∀ fuel, (seats t).length ≤ fuel →
      resolveEscalationOwner t fuel session acceptsDestination = some o) ∧
    (∀ session acceptsDestination fuel o,
      resolveEscalationOwner t fuel session acceptsDestination = some o → o.outcome = .routed →
      ∃ source arc target, resolveSessionNodeId t session = some source ∧
        declared t source = [arc] ∧ endpoints t arc = [target] ∧ target.id ≠ source ∧
        o.owner ≠ none ∧ o.owner = target.sessionName ∧
        (target.status = some .running ∨ target.status = some .idle) ∧ Clear t target.id) ∧
    (¬ ∃ chain : ℕ → String, ∀ n, ∃ fuel acceptsDestination o,
      resolveEscalationOwner t fuel (chain n) acceptsDestination = some o ∧
        o.owner = some (chain (n + 1))) ∧
    ∀ session acceptsDestination fuel o,
      resolveEscalationOwner t fuel session acceptsDestination = some o → o.outcome = .cycle →
      ∃ source x, resolveSessionNodeId t session = some source ∧
        ReflTransGen (Follows t) source x ∧ TransGen (Follows t) x x := by
  refine ⟨resolve_terminates t, ?_, ?_, ?_⟩
  · intro session acceptsDestination fuel o h hrouted
    cases ends_of_resolve h with
    | unrecorded _ hout _ => simp [hout] at hrouted
    | parent _ hout _ => simp [hout] at hrouted
    | refused _ hout _ => exact absurd hrouted hout
    | cycle _ _ _ _ hout => simp [hout] at hrouted
    | @admitted source target s hsource hdest hcyclic hunknown heq =>
      subst heq
      obtain ⟨-, hout⟩ | ⟨name, hname, howner, -, hstatus⟩ :=
        admit_cases session target acceptsDestination
      · simp [hout] at hrouted
      · obtain ⟨arc, harc, htarget⟩ := hdest.named
        exact ⟨source, arc, target, hsource, harc, htarget, hdest.other, by simp [howner],
          howner.trans hname.symm, hstatus, (clear_of_cyclic hcyclic hunknown).1⟩
  · rintro ⟨chain, hchain⟩
    exact no_owners_forever hnames hacyclic chain hchain
  · intro session acceptsDestination fuel o h hcycle
    cases ends_of_resolve h with
    | unrecorded _ hout _ => simp [hout] at hcycle
    | parent _ hout _ => simp [hout] at hcycle
    | refused _ _ hout => exact absurd hcycle hout
    | @cycle source target s hsource hdest hcyclic _ _ =>
      obtain ⟨x, hx, hxx⟩ := cycle_of_destination hdest hcyclic
      exact ⟨source, x, hsource, hx, hxx⟩
    | @admitted source target s hsource hdest hcyclic hunknown heq =>
      subst heq
      obtain ⟨-, hout⟩ | ⟨name, -, -, hout, -⟩ := admit_cases session target acceptsDestination
      · simp [hout] at hcycle
      · simp [hout] at hcycle

/-! ### Escalation edges that a parent hides -/

/-- One step along any declared parent or escalation edge, also past a parent. -/
def Leads (t : Topology ι) (x y : ι) : Prop :=
  (∃ a ∈ parents t x, ∃ seat ∈ seats t, seat.id = a.sourceId ∧ seat.id = y) ∨
    ∃ a ∈ declared t x, ∃ seat ∈ endpoints t a, seat.id = y

/-- `s` escalates to `t`, which escalates to `s` but has the parent `p`. -/
def shielded : Topology ℕ where
  rigs := [⟨0, "r", false⟩]
  nodes := [⟨1, 0, "a.s"⟩, ⟨2, 0, "a.t"⟩, ⟨3, 0, "a.p"⟩]
  sessions := [⟨1, 1, "s@r", .running, 1⟩, ⟨2, 2, "t@r", .running, 2⟩, ⟨3, 3, "p@r", .idle, 3⟩]
  bindings := []
  edges := [⟨1, some 2, none, .escalatesTo⟩, ⟨2, some 1, none, .escalatesTo⟩,
    ⟨3, some 2, none, .delegatesTo⟩]

lemma shielded_names : NamesUnique shielded := by
  unfold NamesUnique
  decide

lemma shielded_delegates {x y : ℕ} (h : Delegates shielded x y) : x = 3 ∧ y = 2 := by
  obtain ⟨e, he, hkind, rfl, htarget⟩ := h
  simp only [shielded, List.mem_cons, List.not_mem_nil, or_false] at he
  rcases he with rfl | rfl | rfl
  · cases hkind
  · cases hkind
  · exact ⟨rfl, (Option.some.inj htarget).symm⟩

lemma shielded_acyclic (x : ℕ) : ¬ TransGen (Delegates shielded) x x := by
  intro h
  obtain ⟨y, hxy, -⟩ := TransGen.head'_iff.mp h
  obtain ⟨z, -, hzx⟩ := TransGen.tail'_iff.mp h
  have hthree := (shielded_delegates hxy).1
  have htwo := (shielded_delegates hzx).2
  omega

/-- The route from `s` ends at `t`, although escalation edges lead from `t` back to it. -/
theorem shielded_leads_back :
    NamesUnique shielded ∧ (∀ x, ¬ TransGen (Delegates shielded) x x) ∧
      (resolveEscalationOwner shielded 3 "s@r" none).map (fun o => (o.outcome, o.owner)) =
        some (.routed, some "t@r") ∧
      resolveSessionNodeId shielded "t@r" = some 2 ∧ TransGen (Leads shielded) 2 2 := by
  refine ⟨shielded_names, shielded_acyclic, by decide, by decide, ?_⟩
  have hback : Leads shielded 2 1 := .inr ⟨⟨2, some 1, none, .escalatesTo⟩, by decide,
    ⟨1, senderAddress "a.s" "r", some "s@r", some .running⟩, List.mem_cons_self, rfl⟩
  have hon : Leads shielded 1 2 := .inr ⟨⟨1, some 2, none, .escalatesTo⟩, by decide,
    ⟨2, senderAddress "a.t" "r", some "t@r", some .running⟩, List.mem_cons_self, rfl⟩
  exact .tail (.single hback) hon

theorem escalation_route_ends_shielded :
    NamesUnique shielded ∧ (∀ x, ¬ TransGen (Delegates shielded) x x) ∧
      ¬ ∃ chain : ℕ → String, ∀ n, ∃ fuel acceptsDestination o,
        resolveEscalationOwner shielded fuel (chain n) acceptsDestination = some o ∧
          o.owner = some (chain (n + 1)) :=
  ⟨shielded_names, shielded_acyclic,
    (escalation_route_ends shielded shielded_names shielded_acyclic).2.2.1⟩

end OpenRig.Escalation
