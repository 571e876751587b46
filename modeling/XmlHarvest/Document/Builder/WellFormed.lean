import XmlHarvest.Document.Builder
import XmlHarvest.Document.Numbering
import XmlHarvest.Result

/-!
# Well-formed builders

While a document is built, the nodes so far are numbered in document order at any time, if an open
element is taken to have all nodes behind it inside. That view makes the end of an element a
trivial event: it stops where it was taken to stop before. So every event keeps the numbering, and
when nothing but the root is open, the nodes are those of a document.

## Main definitions

* `Builder.stop`: where a node stops so far.
* `Builder.WellFormed`: what is true at any time of the nodes so far.
* `Builder.build`: the document that a list of events spells.

## Main results

* `Builder.WellFormed.numbered_add`: one more node keeps the numbering.
* `Builder.WellFormed.step`: no event makes a builder ill-formed.
* `Builder.WellFormed.run`: nor does a list of events.
-/

namespace XmlHarvest

open Markup (Event)

namespace Builder

/-- The node with a number. -/
def node (b : Builder) (i : NodeId) : Node :=
  nodeAt b.nodes i

/-- Whether a node is still to get further nodes, as the root and the open elements are. -/
def IsOpen (b : Builder) (i : NodeId) : Prop :=
  i = 0 ∨ i ∈ b.opened

instance (b : Builder) (i : NodeId) : Decidable (b.IsOpen i) :=
  inferInstanceAs (Decidable (_ ∨ _))

/-- One past the last node inside a node so far. An open node has all nodes behind it inside. -/
def stop (b : Builder) (i : NodeId) : Nat :=
  if b.IsOpen i then b.nodes.size else (b.node i).stop

theorem stop_of_isOpen {b : Builder} {i : NodeId} (hi : b.IsOpen i) : b.stop i = b.nodes.size :=
  if_pos hi

theorem stop_of_not_isOpen {b : Builder} {i : NodeId} (hi : ¬b.IsOpen i) :
    b.stop i = (b.node i).stop :=
  if_neg hi

/-- The nodes so far are numbered in document order, and the open elements lie one inside the
other. -/
structure WellFormed (b : Builder) : Prop where
  numbered : Numbered b.nodes b.stop
  kind_opened : ∀ i ∈ b.opened, (b.node i).kind = .element
  opened_sorted : b.opened.Pairwise (· > ·)
  isOpen_parent : ∀ i p, b.IsOpen i → (b.node i).parent = some p → b.IsOpen p

namespace WellFormed

variable {b : Builder}

theorem isOpen_innermost (b : Builder) : b.IsOpen b.innermost := by
  unfold IsOpen innermost
  cases b.opened with
  | nil => exact .inl rfl
  | cons i is => exact .inr (by simp)

theorem isOpen_lt (h : b.WellFormed) {i : Nat} (hi : b.IsOpen i) : i < b.nodes.size := by
  rcases hi with rfl | hi
  · exact h.numbered.nonempty
  · refine Nat.lt_of_not_le fun hle => ?_
    have hk := h.kind_opened i hi
    rw [node, nodeAt_of_size_le hle] at hk
    cases hk

/-- The innermost open element is the last of the open nodes. -/
theorem le_innermost (h : b.WellFormed) {i : Nat} (hi : b.IsOpen i) : i ≤ b.innermost := by
  rcases hi with rfl | hi
  · exact Nat.zero_le _
  · have hs := h.opened_sorted
    unfold innermost
    cases ho : b.opened with
    | nil => simp [ho] at hi
    | cons j js =>
      rw [ho] at hi hs
      rcases List.mem_cons.1 hi with rfl | hij
      · exact Nat.le_refl _
      · exact Nat.le_of_lt (List.rel_of_pairwise_cons hs hij)

theorem kind_of_isOpen (h : b.WellFormed) {i : Nat} (hi : b.IsOpen i) :
    (b.node i).kind = .root ∨ (b.node i).kind = .element := by
  rcases hi with rfl | hi
  · exact .inl ((h.numbered.kind_eq_root_iff 0 h.numbered.nonempty).2 rfl)
  · exact .inr (h.kind_opened i hi)

/-! ## One more node -/

theorem size_add (b : Builder) (c : Content) : (b.add c).nodes.size = b.nodes.size + 1 := by
  simp [add]

/-- The next number is still free. -/
theorem node_size (b : Builder) : b.node b.nodes.size = default :=
  nodeAt_of_size_le (Nat.le_refl _)

theorem node_add (h : b.WellFormed) (c : Content) (i : Nat) :
    (b.add c).node i =
      if i = b.nodes.size then .leaf c b.innermost b.nodes.size
      else if i = b.innermost then (b.node i).adopt c.kind b.nodes.size
      else b.node i := by
  have hp := h.isOpen_lt (isOpen_innermost b)
  simp only [node, add]
  rw [nodeAt_modify _ (by simpa using Nat.lt_succ_of_lt hp)]
  by_cases hi : i = b.innermost
  · subst hi
    simp [nodeAt_push, Nat.ne_of_lt hp]
  · simp [nodeAt_push, hi]

theorem kind_add (h : b.WellFormed) (c : Content) (i : Nat) :
    ((b.add c).node i).kind = if i = b.nodes.size then c.kind else (b.node i).kind := by
  rw [h.node_add]
  split
  · rfl
  · split <;> simp

theorem parent_add (h : b.WellFormed) (c : Content) (i : Nat) :
    ((b.add c).node i).parent =
      if i = b.nodes.size then some b.innermost else (b.node i).parent := by
  rw [h.node_add]
  split
  · rfl
  · split <;> simp

/-- The nodes so far keep their kinds. -/
theorem kind_add_of_lt (h : b.WellFormed) (c : Content) {i : Nat} (hi : i < b.nodes.size) :
    ((b.add c).node i).kind = (b.node i).kind :=
  (h.kind_add c i).trans (if_neg (Nat.ne_of_lt hi))

/-- The new node belongs to the innermost open node, and the others have the parents they had. -/
theorem parent_add_cases (h : b.WellFormed) {c : Content} {i p : Nat}
    (hip : ((b.add c).node i).parent = some p) :
    i = b.nodes.size ∧ p = b.innermost ∨
      i < b.nodes.size ∧ p < i ∧ (b.node i).parent = some p := by
  rw [h.parent_add] at hip
  split at hip
  · rename_i hi
    exact .inl ⟨hi, (Option.some.inj hip).symm⟩
  · obtain ⟨hp, hi⟩ := h.numbered.parent_lt hip
    exact .inr ⟨hi, hp, hip⟩

/-- Only the innermost open node gets a member, and it comes last. -/
theorem children_add (h : b.WellFormed) (c : Content) (i : Nat) :
    ((b.add c).node i).children =
      if i = b.innermost ∧ c.kind ≠ .attribute then (b.node i).children ++ [b.nodes.size]
      else (b.node i).children := by
  have hp := h.isOpen_lt (isOpen_innermost b)
  rw [h.node_add]
  by_cases hs : i = b.nodes.size
  · subst hs
    rw [if_pos rfl, if_neg fun hi => Nat.ne_of_gt hp hi.1, node_size]
    rfl
  · by_cases hi : i = b.innermost <;> by_cases hc : c.kind = .attribute <;>
      simp [hs, hi, hc, Node.children_adopt, Nat.ne_of_lt hp]

theorem attributes_add (h : b.WellFormed) (c : Content) (i : Nat) :
    ((b.add c).node i).attributes =
      if i = b.innermost ∧ c.kind = .attribute then (b.node i).attributes ++ [b.nodes.size]
      else (b.node i).attributes := by
  have hp := h.isOpen_lt (isOpen_innermost b)
  rw [h.node_add]
  by_cases hs : i = b.nodes.size
  · subst hs
    rw [if_pos rfl, if_neg fun hi => Nat.ne_of_gt hp hi.1, node_size]
    rfl
  · by_cases hi : i = b.innermost <;> by_cases hc : c.kind = .attribute <;>
      simp [hs, hi, hc, Node.attributes_adopt, Nat.ne_of_lt hp]

/-- Open nodes stop behind the new node, and nothing else moves. -/
theorem stop_add (h : b.WellFormed) (c : Content) (i : Nat) :
    (b.add c).stop i =
      if i = b.nodes.size ∨ b.IsOpen i then b.nodes.size + 1 else b.stop i := by
  have ho : (b.add c).IsOpen i ↔ b.IsOpen i := Iff.rfl
  by_cases hi : b.IsOpen i
  · simp [stop, ho, hi, size_add]
  · simp only [stop, ho, hi, if_false, or_false]
    rw [h.node_add]
    split
    · rfl
    · split <;> simp

/-- A node may follow all others if it is no second root, and if an attribute only follows an
element and the attributes of that element. -/
def Admits (b : Builder) (c : Content) : Prop :=
  c.kind ≠ .root ∧ (c.kind = .attribute → (b.node b.innermost).kind = .element ∧
    b.nodes.size = b.innermost + 1 + (b.node b.innermost).attributes.length)

/-- A list that holds the nodes of some kinds in a node still does so if the new node is put behind
it where it belongs there. -/
theorem mem_add_iff (h : b.WellFormed) {c : Content} {K : Kind → Prop} [DecidablePred K]
    {is : List Nat} {p : Nat}
    (his : ∀ i : Nat, i ∈ is ↔ (b.node i).parent = some p ∧ K (b.node i).kind) (i : Nat) :
    i ∈ (if p = b.innermost ∧ K c.kind then is ++ [b.nodes.size] else is) ↔
      ((b.add c).node i).parent = some p ∧ K ((b.add c).node i).kind := by
  rw [h.parent_add, h.kind_add]
  by_cases hi : i = b.nodes.size
  · have hnot : b.nodes.size ∉ is := fun hm => by
      have := h.numbered.parent_lt ((his b.nodes.size).1 hm).1
      omega
    rw [hi, if_pos rfl, if_pos rfl, Option.some.injEq, @eq_comm _ b.innermost p]
    split
    · rename_i hpc
      exact ⟨fun _ => hpc, fun _ => by simp⟩
    · rename_i hpc
      exact ⟨fun hm => absurd hm hnot, fun hm => absurd hm hpc⟩
  · rw [if_neg hi, if_neg hi, ← his i]
    split
    · rw [List.mem_append, List.mem_singleton, or_iff_left hi]
    · exact Iff.rfl

/-- An open node stops where its parent stops, since all nodes end there. No other stop moves. -/
theorem stop_le_stop_add (h : b.WellFormed) (c : Content) {i p : Nat}
    (hip : ((b.add c).node i).parent = some p) : (b.add c).stop i ≤ (b.add c).stop p := by
  rw [h.stop_add, h.stop_add]
  rcases h.parent_add_cases hip with ⟨hi, rfl⟩ | ⟨hi, hp, hip⟩
  · exact Nat.le_of_eq (by rw [if_pos (.inl hi), if_pos (.inr (isOpen_innermost b))])
  · have hle := h.numbered.stop_le_stop i p hip
    have hleSize := h.numbered.stop_le p (by omega)
    by_cases hio : b.IsOpen i
    · have hpo := h.isOpen_parent i p hio hip
      exact Nat.le_of_eq (by rw [if_pos (.inr hio), if_pos (.inr hpo)])
    · rw [if_neg (by simp only [hio, or_false]; omega)]
      split <;> omega

/-- A node in which the new node lies is open, and the innermost open node is the last of those. -/
theorem le_parent_add (h : b.WellFormed) (c : Content) {i j : Nat} (hij : i < j)
    (hj : j < (b.add c).stop i) : ∃ p : Nat, ((b.add c).node j).parent = some p ∧ i ≤ p := by
  have hn := h.numbered
  rw [h.stop_add] at hj
  rw [h.parent_add]
  by_cases hjs : j = b.nodes.size
  · refine ⟨b.innermost, if_pos hjs, ?_⟩
    by_cases hi : b.IsOpen i
    · exact h.le_innermost hi
    · have := hn.stop_le i (by omega)
      rw [if_neg (by simp only [hi, or_false]; omega)] at hj
      omega
  · rw [if_neg hjs]
    refine hn.le_parent i j hij ?_
    by_cases hi : b.IsOpen i
    · rw [if_pos (.inr hi)] at hj
      rw [stop, if_pos hi]
      omega
    · split at hj
      · rename_i his
        have := his.resolve_right hi
        omega
      · exact hj

/-- The members of a node other than attributes are in order, the new node being the last. -/
theorem children_sorted_add (h : b.WellFormed) (c : Content) (p : Nat) :
    ((b.add c).node p).children.Pairwise (· < ·) := by
  have hn := h.numbered
  rw [h.children_add]
  split
  · refine List.pairwise_append.2 ⟨hn.children_sorted p, List.pairwise_singleton _ _, ?_⟩
    intro i hi j hj
    rw [List.mem_singleton.1 hj]
    exact (hn.parent_lt ((hn.mem_children p i).1 hi).1).2
  · exact hn.children_sorted p

/-- The attributes of a node follow it directly, a new attribute being the last node of all. -/
theorem attributes_eq_add (h : b.WellFormed) {c : Content} (hc : Admits b c) (p : Nat) :
    ((b.add c).node p).attributes =
      List.range' (p + 1) ((b.add c).node p).attributes.length := by
  have hold := h.numbered.attributes_eq p
  rw [h.attributes_add]
  split
  · rename_i hpc
    obtain ⟨rfl, hk⟩ := hpc
    have hend := (hc.2 hk).2
    rw [List.length_append, List.length_singleton, List.range'_1_concat, ← hend]
    exact congrArg (· ++ [b.nodes.size]) hold
  · exact hold

/-- One more node keeps the numbering.

**Proof sketch.** The new node has the last number, and only its parent is changed, which is the
innermost open node. All open nodes stop behind the new node. -/
theorem numbered_add (h : b.WellFormed) {c : Content} (hc : Admits b c) :
    Numbered (b.add c).nodes (b.add c).stop := by
  have hn := h.numbered
  have hpos := hn.nonempty
  have hp := h.isOpen_lt (isOpen_innermost b)
  have hsize := size_add b c
  constructor
  case nonempty => omega
  case kind_eq_root_iff =>
    intro i hi
    rw [show (nodeAt (b.add c).nodes i).kind = _ from h.kind_add c i]
    split
    · exact ⟨fun hr => absurd hr hc.1, fun h0 => by omega⟩
    · exact hn.kind_eq_root_iff i (by omega)
  case parent_root =>
    rw [show (nodeAt (b.add c).nodes 0).parent = _ from h.parent_add c 0, if_neg (by omega)]
    exact hn.parent_root
  case parent_of_pos =>
    intro i h0 hi
    rw [show (nodeAt (b.add c).nodes i).parent = _ from h.parent_add c i]
    split
    · exact ⟨b.innermost, by omega, rfl⟩
    · exact hn.parent_of_pos i h0 (by omega)
  case kind_parent =>
    intro i p hip
    rcases h.parent_add_cases hip with ⟨-, rfl⟩ | ⟨hi, hpi, hip⟩
    · rw [show (nodeAt (b.add c).nodes _).kind = _ from h.kind_add_of_lt c hp]
      exact h.kind_of_isOpen (isOpen_innermost b)
    · rw [show (nodeAt (b.add c).nodes p).kind = _ from h.kind_add_of_lt c (by omega)]
      exact hn.kind_parent i p hip
  case kind_parent_attribute =>
    intro i p hip hk
    rcases h.parent_add_cases hip with ⟨rfl, rfl⟩ | ⟨hi, hpi, hip⟩
    · have hattribute : c.kind = .attribute := ((h.kind_add c _).trans (if_pos rfl)).symm.trans hk
      exact (h.kind_add_of_lt c hp).trans (hc.2 hattribute).1
    · have hattribute := (h.kind_add_of_lt c hi).symm.trans hk
      exact (h.kind_add_of_lt c (by omega)).trans (hn.kind_parent_attribute i p hip hattribute)
  case mem_children =>
    intro p i
    rw [show (nodeAt (b.add c).nodes p).children = _ from h.children_add c p]
    exact h.mem_add_iff (K := (· ≠ .attribute)) (hn.mem_children p) i
  case children_sorted => exact h.children_sorted_add c
  case mem_attributes =>
    intro p i
    rw [show (nodeAt (b.add c).nodes p).attributes = _ from h.attributes_add c p]
    exact h.mem_add_iff (K := (· = .attribute)) (hn.mem_attributes p) i
  case attributes_eq => exact h.attributes_eq_add hc
  case lt_stop =>
    intro i hi
    rw [h.stop_add]
    split
    · omega
    · exact hn.lt_stop i (by omega)
  case stop_le =>
    intro i hi
    rw [h.stop_add]
    split
    · omega
    · have := hn.stop_le i (by omega)
      omega
  case stop_root => rw [h.stop_add, if_pos (.inr (.inl rfl)), hsize]
  case stop_le_stop => exact fun i p => h.stop_le_stop_add c
  case le_parent => exact fun i j => h.le_parent_add c

theorem add (h : b.WellFormed) {c : Content} (hc : Admits b c) : (b.add c).WellFormed where
  numbered := h.numbered_add hc
  kind_opened i hi := by
    have hlt := h.isOpen_lt (.inr hi)
    rw [h.kind_add, if_neg (by omega)]
    exact h.kind_opened i hi
  opened_sorted := h.opened_sorted
  isOpen_parent i p hi hip := by
    have hlt := h.isOpen_lt hi
    rw [h.parent_add, if_neg (by omega)] at hip
    exact h.isOpen_parent i p hi hip

/-- Texts, comments and instructions may follow any node. -/
theorem add_content (h : b.WellFormed) {c : Content}
    (hc : c.kind ≠ .root ∧ c.kind ≠ .attribute) : (b.add c).WellFormed :=
  h.add ⟨hc.1, fun ha => absurd ha hc.2⟩

/-! ## Open elements -/

/-- An element that has just been started is open. It stops behind itself either way. -/
theorem enter (h : b.WellFormed) (name : QName) : (b.enter name).WellFormed := by
  have hp := h.add_content (c := .element name) (by simp [Content.kind])
  have ho (i : Nat) : (b.enter name).IsOpen i ↔ i = b.nodes.size ∨ b.IsOpen i := by
    simp only [IsOpen, Builder.enter, List.mem_cons, or_left_comm]
  constructor
  case numbered =>
    refine hp.numbered.congr rfl (fun i => ⟨_, rfl⟩) fun i => ?_
    rw [h.stop_add]
    by_cases hi : i = b.nodes.size ∨ b.IsOpen i
    · rw [stop_of_isOpen ((ho i).2 hi), if_pos hi]
      exact size_add b _
    · have hb : ¬b.IsOpen i := fun hi' => hi (.inr hi')
      calc (b.enter name).stop i
          = (b.add (.element name)).stop i := by
            rw [stop_of_not_isOpen (mt (ho i).1 hi)]
            exact (stop_of_not_isOpen (b := b.add _) hb).symm
        _ = _ := h.stop_add _ i
  case kind_opened =>
    intro i hi
    rcases List.mem_cons.1 hi with rfl | hi
    · exact (h.kind_add _ _).trans (if_pos rfl)
    · exact hp.kind_opened i hi
  case opened_sorted =>
    exact List.pairwise_cons.2 ⟨fun i hi => h.isOpen_lt (.inr hi), h.opened_sorted⟩
  case isOpen_parent =>
    intro i p hi hip
    rw [ho] at hi ⊢
    rcases hi with rfl | hi
    · have := (h.parent_add (.element name) b.nodes.size).symm.trans hip
      rw [if_pos rfl] at this
      cases this
      exact .inr (isOpen_innermost b)
    · exact .inr (hp.isOpen_parent i p hi hip)

/-- The innermost open node is an element and has nothing behind it but its attributes. -/
def AtTag (b : Builder) : Prop :=
  (b.node b.innermost).kind = .element ∧
    b.nodes.size = b.innermost + 1 + (b.node b.innermost).attributes.length

theorem atTag_enter (h : b.WellFormed) (name : QName) : AtTag (b.enter name) := by
  have hp := h.isOpen_lt (isOpen_innermost b)
  have hkind : ((b.enter name).node b.nodes.size).kind = .element :=
    (h.kind_add _ _).trans (if_pos rfl)
  have hattributes : ((b.enter name).node b.nodes.size).attributes = [] := by
    refine (h.attributes_add _ _).trans ?_
    rw [if_neg (by omega), node_size]
    rfl
  refine ⟨hkind, ?_⟩
  show (b.add (.element name)).nodes.size = _
  rw [size_add, show (b.enter name).innermost = b.nodes.size from rfl, hattributes]
  rfl

theorem add_attribute (h : b.WellFormed) (ht : AtTag b) (name : QName) (value : String) :
    (b.add (.attribute name value)).WellFormed ∧ AtTag (b.add (.attribute name value)) := by
  have hp := h.isOpen_lt (isOpen_innermost b)
  have hinner : (b.add (.attribute name value)).innermost = b.innermost := rfl
  refine ⟨h.add ⟨by simp [Content.kind], fun _ => ht⟩, ?_, ?_⟩
  · rw [hinner, h.kind_add, if_neg (by omega)]
    exact ht.1
  · have := ht.2
    rw [size_add, hinner, h.attributes_add, if_pos ⟨rfl, rfl⟩, List.length_append]
    simp only [List.length_singleton]
    omega

theorem ne_zero_of_mem_opened (h : b.WellFormed) {i : Nat} (hi : i ∈ b.opened) : i ≠ 0 := by
  rintro rfl
  have hroot := (h.numbered.kind_eq_root_iff 0 h.numbered.nonempty).2 rfl
  have helement := h.kind_opened 0 hi
  rw [node, hroot] at helement
  cases helement

/-- A node that is closed where the nodes end changes no link. -/
theorem numbered_close (h : b.WellFormed) {i : Nat} (hi : b.IsOpen i) {stop : Nat → Nat}
    (hstop : ∀ j : Nat, stop j = b.stop j) :
    Numbered (b.nodes.modify i (·.close b.nodes.size)) stop := by
  refine h.numbered.congr (by simp) (fun j => ?_) hstop
  rw [nodeAt_modify _ (h.isOpen_lt hi)]
  by_cases hj : j = i
  · exact ⟨b.nodes.size, by rw [if_pos hj, hj]⟩
  · exact ⟨_, if_neg hj⟩

section Leave

variable {i : Nat} {is : List Nat}

/-- The innermost open element lies behind the open elements around it. -/
theorem not_mem_of_opened (h : b.WellFormed) (ho : b.opened = i :: is) : i ∉ is := by
  have hsorted := h.opened_sorted
  rw [ho] at hsorted
  exact fun hi => Nat.lt_irrefl i (List.rel_of_pairwise_cons hsorted hi)

/-- Only the element that ends is no longer open. -/
theorem isOpen_leave (h : b.WellFormed) (ho : b.opened = i :: is) (j : Nat) :
    b.leave.IsOpen j ↔ b.IsOpen j ∧ j ≠ i := by
  have hmem : i ∈ b.opened := by simp [ho]
  have hroot := h.ne_zero_of_mem_opened hmem
  have hnot := h.not_mem_of_opened ho
  rw [IsOpen, IsOpen, leave_eq ho, ho, List.mem_cons]
  constructor
  · rintro (rfl | hj)
    · exact ⟨.inl rfl, hroot.symm⟩
    · exact ⟨.inr (.inr hj), fun hji => hnot (hji ▸ hj)⟩
  · rintro ⟨rfl | rfl | hj, hne⟩
    · exact .inl rfl
    · exact absurd rfl hne
    · exact .inr hj

/-- Only the element that ends is changed. -/
theorem node_leave (h : b.WellFormed) (ho : b.opened = i :: is) (j : Nat) :
    b.leave.node j = if j = i then (b.node i).close b.nodes.size else b.node j := by
  rw [leave_eq ho]
  exact nodeAt_modify _ (h.isOpen_lt (.inr (by simp [ho]))) _ j

/-- An element that ends holds from then on where it stops, which is where it stopped before. -/
theorem stop_leave (h : b.WellFormed) (ho : b.opened = i :: is) (j : Nat) :
    b.leave.stop j = b.stop j := by
  have hi : b.IsOpen i := .inr (by simp [ho])
  have hopen := h.isOpen_leave ho j
  by_cases hj : j = i
  · rw [stop_of_not_isOpen fun hj' => (hopen.1 hj').2 hj, h.node_leave ho, if_pos hj, hj,
      stop_of_isOpen hi, Node.stop_close]
  · by_cases hjo : b.IsOpen j
    · rw [stop_of_isOpen hjo, stop_of_isOpen (hopen.2 ⟨hjo, hj⟩), leave_eq ho]
      exact Array.size_modify
    · rw [stop_of_not_isOpen hjo, stop_of_not_isOpen fun hj' => hjo (hopen.1 hj').1,
        h.node_leave ho, if_neg hj]

/-- The end of an element leaves the nodes as they are and the elements around it open. -/
theorem leave (h : b.WellFormed) : b.leave.WellFormed := by
  cases ho : b.opened with
  | nil =>
    rw [leave_eq_self ho]
    exact h
  | cons i is =>
    have hopened : b.leave.opened = is := by rw [leave_eq ho]
    have hsub {j : Nat} (hj : j ∈ b.leave.opened) : j ∈ b.opened ∧ j ≠ i := by
      rw [hopened] at hj
      exact ⟨by simp [ho, hj], fun hji => h.not_mem_of_opened ho (hji ▸ hj)⟩
    constructor
    case numbered =>
      rw [leave_eq ho]
      exact h.numbered_close (.inr (by simp [ho])) fun j => leave_eq ho ▸ h.stop_leave ho j
    case kind_opened =>
      intro j hj
      obtain ⟨hjo, hji⟩ := hsub hj
      rw [h.node_leave ho, if_neg hji]
      exact h.kind_opened j hjo
    case opened_sorted =>
      have hsorted := h.opened_sorted
      rw [ho] at hsorted
      rw [hopened]
      exact (List.pairwise_cons.1 hsorted).2
    case isOpen_parent =>
      intro j p hj hjp
      obtain ⟨hjo, hji⟩ := (h.isOpen_leave ho j).1 hj
      rw [h.node_leave ho, if_neg hji] at hjp
      have hpo := h.isOpen_parent j p hjo hjp
      have hlt := (h.numbered.parent_lt hjp).1
      have hle := h.le_innermost hjo
      rw [innermost_eq ho] at hle
      exact (h.isOpen_leave ho p).2 ⟨hpo, by omega⟩

end Leave

/-! ## Events -/

variable {b' : Builder}

/-- Character data that are held back are no matter of the nodes. -/
theorem with_text (h : b.WellFormed) (text : String) :
    { b with text := text : Builder }.WellFormed :=
  ⟨h.numbered, h.kind_opened, h.opened_sorted, h.isOpen_parent⟩

theorem push_content (h : b.WellFormed) {c : Content} (hc : c.kind ≠ .root ∧ c.kind ≠ .attribute)
    (hb : b.push c = .ok b') : b'.WellFormed := by
  obtain ⟨-, rfl⟩ := counted_eq_ok_iff.1 hb
  exact h.add_content hc

theorem flushText (h : b.WellFormed) (hb : b.flushText = .ok b') : b'.WellFormed := by
  unfold Builder.flushText at hb
  split at hb
  · cases hb
    exact h
  · split at hb
    · cases hb
      exact h.with_text ""
    · exact (h.with_text "").push_content (by simp [Content.kind]) hb

theorem leaf (h : b.WellFormed) {c : Content} (hc : c.kind ≠ .root ∧ c.kind ≠ .attribute)
    (hb : b.leaf c = .ok b') : b'.WellFormed := by
  obtain ⟨b₁, hb₁, hb⟩ := bind_eq_ok_iff.1 hb
  exact (h.flushText hb₁).push_content hc hb

theorem pushAttributes (h : b.WellFormed) (ht : AtTag b) {as : List (QName × String)}
    (hb : b.pushAttributes as = .ok b') : b'.WellFormed := by
  induction as generalizing b with
  | nil =>
    cases hb
    exact h
  | cons a as ih =>
    obtain ⟨b₁, hb₁, hb⟩ := bind_eq_ok_iff.1 hb
    obtain ⟨-, rfl⟩ := counted_eq_ok_iff.1 hb₁
    obtain ⟨h', ht'⟩ := h.add_attribute ht a.1 a.2
    exact ih h' ht' hb

theorem openElement (h : b.WellFormed) {name : QName} {as : List (QName × String)}
    (hb : b.openElement name as = .ok b') : b'.WellFormed := by
  obtain ⟨b₁, hb₁, hb⟩ := bind_eq_ok_iff.1 hb
  obtain ⟨b₂, hb₂, hb⟩ := bind_eq_ok_iff.1 hb
  obtain ⟨-, rfl⟩ := counted_eq_ok_iff.1 hb₂
  exact ((h.flushText hb₁).enter name).pushAttributes ((h.flushText hb₁).atTag_enter name) hb

theorem closeElement (h : b.WellFormed) (hb : b.closeElement = .ok b') : b'.WellFormed := by
  obtain ⟨b₁, hb₁, hb⟩ := bind_eq_ok_iff.1 hb
  split at hb
  · cases hb
    exact h.flushText hb₁
  · obtain ⟨-, rfl⟩ := counted_eq_ok_iff.1 hb
    exact (h.flushText hb₁).leave

/-- No event makes a builder ill-formed. -/
theorem step (h : b.WellFormed) {e : Event} (hb : b.step e = .ok b') : b'.WellFormed := by
  cases e with
  | opening name attributes => exact h.openElement hb
  | closing => exact h.closeElement hb
  | empty name attributes =>
    obtain ⟨b₁, hb₁, hb⟩ := bind_eq_ok_iff.1 hb
    exact (h.openElement hb₁).closeElement hb
  | text chars | characterData chars | reference chars =>
    cases hb
    exact h.with_text _
  | comment content => exact h.leaf (by simp [Content.kind]) hb
  | instruction target data => exact h.leaf (by simp [Content.kind]) hb
  | declaration | doctype =>
    cases hb
    exact h

theorem run (h : b.WellFormed) {es : List Event} (hb : b.run es = .ok b') : b'.WellFormed := by
  induction es generalizing b with
  | nil =>
    cases hb
    exact h
  | cons e es ih =>
    obtain ⟨b₁, hb₁, hb⟩ := bind_eq_ok_iff.1 hb
    exact ih (h.step hb₁) hb

/-- The root alone is well-formed. -/
theorem initial : Builder.initial.WellFormed := by
  have hsize : Builder.initial.nodes.size = 1 := rfl
  have hroot : nodeAt Builder.initial.nodes 0 = ⟨.root, none, [], [], 1⟩ := rfl
  have hnone {i : Nat} (hi : i ≠ 0) : nodeAt Builder.initial.nodes i = default :=
    nodeAt_of_size_le (by omega)
  have hempty (i : Nat) : (nodeAt Builder.initial.nodes i).parent = none ∧
      (nodeAt Builder.initial.nodes i).children = [] ∧
      (nodeAt Builder.initial.nodes i).attributes = [] := by
    by_cases hi : i = 0
    · rw [hi, hroot]
      exact ⟨rfl, rfl, rfl⟩
    · rw [hnone hi]
      exact ⟨rfl, rfl, rfl⟩
  have hstop : Builder.initial.stop 0 = 1 := rfl
  have hstop' {i : Nat} (hi : i ≠ 0) : Builder.initial.stop i = 0 := by
    rw [stop_of_not_isOpen (by simp [IsOpen, Builder.initial, hi]), node, hnone hi]
    rfl
  constructor
  case numbered =>
    constructor <;> simp only [hempty, hsize]
    case kind_eq_root_iff =>
      intro i hi
      obtain rfl : i = 0 := by omega
      exact ⟨fun _ => rfl, fun _ => rfl⟩
    case lt_stop =>
      intro i hi
      obtain rfl : i = 0 := by omega
      exact Nat.one_pos
    case stop_le =>
      intro i hi
      obtain rfl : i = 0 := by omega
      exact Nat.le_refl _
    case stop_root => exact hstop
    case le_parent =>
      intro i j hij hj
      by_cases hi : i = 0
      · subst hi
        rw [hstop] at hj
        omega
      · rw [hstop' hi] at hj
        omega
    all_goals simp <;> omega
  case kind_opened => simp [Builder.initial]
  case opened_sorted => exact List.Pairwise.nil
  case isOpen_parent =>
    intro i p _ hip
    rw [node, (hempty i).1] at hip
    cases hip

end WellFormed

/-! ## The whole document -/

/-- The work of all events of a document, after which no character data are held back. -/
def read (es : List Event) : Except Markup.Error Builder := do
  let b ← initial.run es
  b.flushText

theorem WellFormed.read {es : List Event} {b : Builder} (hb : Builder.read es = .ok b) :
    b.WellFormed := by
  obtain ⟨b₁, hb₁, hb⟩ := bind_eq_ok_iff.1 hb
  exact (WellFormed.initial.run hb₁).flushText hb

/-- The document when all events have been read and no character data are held back. The innermost
element that is still open is at fault. -/
def finish (b : Builder) (h : b.WellFormed) : Except Markup.Error Document :=
  match hb : b.opened with
  | i :: _ => .error (.unclosed (((b.node i).content.name?).elim "" QName.qualified))
  | [] =>
    if hsize : b.nodes.size < nodeLimit then
      .ok ⟨b.nodes.modify 0 (·.close b.nodes.size), h.numbered_close (.inl rfl) (by
        intro i
        rw [nodeAt_modify _ h.numbered.nonempty]
        by_cases hi : i = 0
        · rw [if_pos hi, stop_of_isOpen (.inl hi)]
          rfl
        · rw [if_neg hi, stop_of_not_isOpen (by simp [IsOpen, hb, hi])]
          rfl), Array.size_modify.symm ▸ hsize⟩
    else .error .tooLarge

/-- The document of a builder that is the outcome of reading events. -/
def conclude (outcome : Except Markup.Error Builder) (h : ∀ b, outcome = .ok b → b.WellFormed) :
    Except Markup.Error Document :=
  match outcome, h with
  | .ok b, h => b.finish (h b rfl)
  | .error fault, _ => .error fault

/-- The document that a list of events spells. -/
def build (es : List Event) : Except Markup.Error Document :=
  conclude (read es) fun _ => .read

end Builder

end XmlHarvest
