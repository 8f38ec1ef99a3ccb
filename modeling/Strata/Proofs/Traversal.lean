import Mathlib.Tactic
import Strata.Proofs.Utf8
import Strata.Syntax.Node

/-!
# The walk over a tree tells its readings in pre-order

The walk keeps a worklist: it takes a tree from the front and puts the children of its root there. What it still
has to tell is therefore determined by the readings of all trees that wait (`Walk.outlook`). A turn does not
change the outlook (`outlook_turn`), the last turn tells it (`turn_eq_outlook`), and every turn leaves fewer nodes
to visit, so that a walk ends after at most one turn for each node and one more.

The readings themselves are those of the visited nodes, one after the other (`readings_eq_flatMap_visits`), which
says where a fault comes from: from the first import whose path is no UTF-8.
-/

namespace Strata.Syntax

open Text.Utf8 (Fault decode)

/-! ## Recursion over trees -/

namespace Node

mutual

/-- The nodes that a walk comes to, in pre-order: all nodes but those below an import. -/
def visits : Node → List Node
  | mk kind named text span children =>
    let n := mk kind named text span children
    n :: if n.isImport then [] else visitsOfAll children

/-- The nodes that a walk over several trees comes to. -/
def visitsOfAll : List Node → List Node
  | [] => []
  | n :: rest => n.visits ++ visitsOfAll rest

end

/-- What there is to read at a node, apart from the nodes below it. -/
def sights (n : Node) : List (Except Fault Event) :=
  if n.isImport then [n.importEvent] else n.throwEvents.map .ok

/-- The text of the node's path, if it has one, is UTF-8. -/
def HasReadablePath (n : Node) : Prop :=
  ∀ c, n.pathChild? = some c → c.text.IsValidUTF8

theorem readings_eq (n : Node) :
    n.readings = if n.isImport then [n.importEvent]
      else n.throwEvents.map .ok ++ readingsOfAll n.children := by
  cases n
  rw [readings]
  rfl

theorem visits_eq (n : Node) : n.visits = n :: if n.isImport then [] else visitsOfAll n.children := by
  cases n
  rw [visits]
  rfl

theorem readingsOfAll_append (a b : List Node) :
    readingsOfAll (a ++ b) = readingsOfAll a ++ readingsOfAll b := by
  induction a with
  | nil => rfl
  | cons n a ih => rw [List.cons_append, readingsOfAll, readingsOfAll, ih, List.append_assoc]

theorem readingsOfAll_eq_flatMap (ns : List Node) : readingsOfAll ns = ns.flatMap readings := by
  induction ns with
  | nil => rfl
  | cons n ns ih => rw [readingsOfAll, ih, List.flatMap_cons]

/-- The recursion over a tree in terms of the kinds and the spans of its nodes. -/
theorem readings_eq_of_kind (n : Node) :
    n.readings =
      let place : Location := ⟨n.span.start.row + 1, n.span.start.column + 1,
        some (n.span.stop.row + 1), some (n.span.stop.column + 1)⟩
      if n.kind = "import" ∨ n.kind = "import_header" then [n.dottedPath.map (.imported · place)]
      else (if n.kind = "throw_expression" ∨
          n.kind = "jump_expression" ∧ n.children.head?.map kind = some "throw" then [.ok (.thrown place)]
        else []) ++ n.children.flatMap readings := by
  rw [readings_eq, readingsOfAll_eq_flatMap]
  by_cases himport : n.kind = "import" ∨ n.kind = "import_header"
  · have h : n.isImport = true := by simpa [isImport] using himport
    rw [if_pos h, if_pos himport]
    rfl
  · have h : ¬ n.isImport = true := by simpa [isImport] using himport
    rw [if_neg h, if_neg himport]
    by_cases hthrow : n.kind = "throw_expression" ∨
        n.kind = "jump_expression" ∧ n.children.head?.map kind = some "throw"
    · have ht : n.isThrow = true := by simpa [isThrow] using hthrow
      rw [if_pos hthrow, throwEvents, if_pos ht]
      rfl
    · have ht : ¬ n.isThrow = true := by simpa [isThrow] using hthrow
      rw [if_neg hthrow, throwEvents, if_neg ht]
      rfl

mutual

/-- A tree is read by reading the nodes that a walk comes to. -/
theorem readings_eq_flatMap_visits : ∀ n : Node, n.readings = n.visits.flatMap sights
  | mk kind named text span children => by
    have ih := readingsOfAll_eq_flatMap_visits children
    rw [readings_eq, visits_eq, List.flatMap_cons, sights]
    split
    · rfl
    · exact congrArg (_ ++ ·) ih

/-- The same for several trees. -/
theorem readingsOfAll_eq_flatMap_visits :
    ∀ ns : List Node, readingsOfAll ns = (visitsOfAll ns).flatMap sights
  | [] => rfl
  | n :: rest => by
    rw [readingsOfAll, visitsOfAll, List.flatMap_append, readings_eq_flatMap_visits n,
      readingsOfAll_eq_flatMap_visits rest]

end

/-- An import can be read iff its path can. -/
theorem exists_importEvent_ok_iff (n : Node) : (∃ e, n.importEvent = .ok e) ↔ n.HasReadablePath := by
  unfold importEvent dottedPath HasReadablePath
  cases hc : n.pathChild? with
  | none => simp [Except.map]
  | some c =>
    have herror : (∃ f, decode c.text = .error f) ↔ ¬ c.text.IsValidUTF8 := Text.Utf8.exists_decode_error_iff
    cases hd : decode c.text with
    | error f =>
      have hbad : ¬ c.text.IsValidUTF8 := herror.1 ⟨f, hd⟩
      simp [hd, Except.map, hbad]
    | ok s =>
      have hgood : c.text.IsValidUTF8 := by
        by_contra hbad
        obtain ⟨f, hf⟩ := herror.2 hbad
        rw [hd] at hf
        cases hf
      simp [hd, Except.map, hgood]

/-- An import that cannot be read faults as its path does. -/
theorem importEvent_eq_error {n : Node} {f : Fault} (h : n.importEvent = .error f) :
    ∃ c, n.pathChild? = some c ∧ decode c.text = .error f := by
  unfold importEvent dottedPath at h
  cases hc : n.pathChild? with
  | none => simp [hc, Except.map] at h
  | some c =>
    refine ⟨c, rfl, ?_⟩
    cases hd : decode c.text with
    | error f' => simpa [hc, hd, Except.map] using h
    | ok s => simp [hc, hd, Except.map] at h

/-- Nodes whose imports can be read tell an event at every sight. -/
theorem flatMap_sights_eq_ok {ns : List Node} (h : ∀ n ∈ ns, n.isImport → n.HasReadablePath) :
    ∃ es : List Event, ns.flatMap sights = es.map .ok := by
  induction ns with
  | nil => exact ⟨[], rfl⟩
  | cons n ns ih =>
    obtain ⟨es, hes⟩ := ih fun m hm => h m (List.mem_cons_of_mem n hm)
    rw [List.flatMap_cons, hes, sights]
    by_cases hn : n.isImport
    · obtain ⟨e, he⟩ := (exists_importEvent_ok_iff n).2 (h n List.mem_cons_self hn)
      exact ⟨e :: es, by simp [hn, he]⟩
    · exact ⟨n.throwEvents ++ es, by simp [hn]⟩

/-- Among nodes that cannot all be read there is a first one that cannot. -/
theorem exists_first_unreadable {ns : List Node} (h : ¬ ∀ n ∈ ns, n.isImport → n.HasReadablePath) :
    ∃ before n after, ns = before ++ n :: after ∧ (∀ m ∈ before, m.isImport → m.HasReadablePath) ∧
      n.isImport ∧ ¬ n.HasReadablePath := by
  induction ns with
  | nil => exact absurd (by simp) h
  | cons n ns ih =>
    by_cases hn : n.isImport → n.HasReadablePath
    · have hns : ¬ ∀ m ∈ ns, m.isImport → m.HasReadablePath := by
        intro hall
        exact h (List.forall_mem_cons.2 ⟨hn, hall⟩)
      obtain ⟨before, m, after, rfl, hbefore, hm⟩ := ih hns
      exact ⟨n :: before, m, after, rfl, List.forall_mem_cons.2 ⟨hn, hbefore⟩, hm⟩
    · rw [Classical.not_imp] at hn
      exact ⟨[], n, ns, rfl, by simp, hn⟩

end Node

/-! ## The walk -/

/-- What is told of some readings: the events up to the first fault. -/
def toldOf : List (Except Fault Event) → Delivery Fault Event
  | [] => ⟨[], none⟩
  | .error f :: _ => ⟨[], some f⟩
  | .ok e :: rest => ⟨e :: (toldOf rest).items, (toldOf rest).fault⟩

theorem toldOf_ok_append (es : List Event) (rest : List (Except Fault Event)) :
    toldOf (es.map .ok ++ rest) = ⟨es ++ (toldOf rest).items, (toldOf rest).fault⟩ := by
  induction es with
  | nil => rfl
  | cons e es ih => rw [List.map_cons, List.cons_append, toldOf, ih]; rfl

namespace Walk

/-- The walk ends after that many turns and has then told all this. -/
inductive Ends : Walk → Nat → Delivery Fault Event → Prop
  | last {w : Walk} {d : Delivery Fault Event} (h : w.turn = .inl d) : Ends w 1 d
  | next {w w' : Walk} {k : Nat} {d : Delivery Fault Event} (h : w.turn = .inr w') (rest : Ends w' k d) :
      Ends w (k + 1) d

/-- What a walk will have told in the end, seen from where it stands. -/
def outlook (w : Walk) : Delivery Fault Event :=
  let d := toldOf (Node.readingsOfAll w.waiting)
  ⟨w.told.reverse ++ d.items, d.fault⟩

/-- The last turn of a walk tells its outlook. -/
theorem turn_eq_outlook {w : Walk} {d : Delivery Fault Event} (h : w.turn = .inl d) : d = w.outlook := by
  obtain ⟨waiting, told⟩ := w
  cases waiting with
  | nil =>
    cases h
    simp [outlook, Node.readingsOfAll, toldOf]
  | cons n waiting =>
    simp only [turn] at h
    split at h
    case isFalse => cases h
    case isTrue himport =>
      split at h
      case h_2 => cases h
      case h_1 f hf =>
        cases h
        simp [outlook, Node.readingsOfAll, Node.readings_eq, himport, hf, toldOf]

/-- A turn that is not the last keeps the outlook of a walk. -/
theorem outlook_turn {w w' : Walk} (h : w.turn = .inr w') : w'.outlook = w.outlook := by
  obtain ⟨waiting, told⟩ := w
  cases waiting with
  | nil => cases h
  | cons n waiting =>
    simp only [turn] at h
    split at h
    case isTrue himport =>
      split at h
      case h_1 => cases h
      case h_2 e he =>
        cases h
        simp [outlook, Node.readingsOfAll, Node.readings_eq, himport, he, toldOf]
    case isFalse himport =>
      cases h
      -- a node tells at most one throw, so the order in which `told` grows is no matter
      have hthrow : n.throwEvents.reverse = n.throwEvents := by
        unfold Node.throwEvents
        split <;> rfl
      simp [outlook, Node.readingsOfAll, Node.readings_eq, himport, Node.readingsOfAll_append,
        toldOf_ok_append, hthrow]

/-- A walk ends after at most one turn for each node that waits and one more, and tells its outlook. -/
theorem ends_outlook (w : Walk) : ∃ turns ≤ Node.sizes w.waiting + 1, w.Ends turns w.outlook := by
  induction hn : Node.sizes w.waiting using Nat.strong_induction_on generalizing w with
  | _ n ih =>
    cases ht : w.turn with
    | inl d =>
      refine ⟨1, by omega, ?_⟩
      rw [← turn_eq_outlook ht]
      exact .last ht
    | inr w' =>
      have hlt := sizes_turn ht
      obtain ⟨k, hk, hends⟩ := ih (Node.sizes w'.waiting) (by omega) w' rfl
      refine ⟨k + 1, by omega, ?_⟩
      rw [← outlook_turn ht]
      exact .next ht hends

/-- However a walk ends, it is finished with what it has told then. -/
theorem Ends.eq_finish {w : Walk} {k : Nat} {d : Delivery Fault Event} (h : w.Ends k d) : w.finish = d := by
  induction h with
  | last h =>
    rw [finish]
    split
    · next d' h' => rw [h] at h'; cases h'; rfl
    · next w' h' => rw [h] at h'; cases h'
  | next h _ ih =>
    rw [finish]
    split
    · next d' h' => rw [h] at h'; cases h'
    · next w' h' => rw [h] at h'; cases h'; exact ih

end Walk

/-- A walk over a tree tells its readings up to the first fault. -/
theorem walk_eq_toldOf (root : Node) : walk root = toldOf root.readings := by
  obtain ⟨k, -, hends⟩ := (Walk.start root).ends_outlook
  rw [walk, hends.eq_finish]
  simp [Walk.outlook, Walk.start, Node.readingsOfAll]

/-- A walk over a tree whose imports can all be read tells all its readings. -/
theorem walk_eq_of_readable {root : Node} (h : ∀ n ∈ root.visits, n.isImport → n.HasReadablePath) :
    ∃ es, root.readings = es.map .ok ∧ walk root = ⟨es, none⟩ := by
  obtain ⟨es, hes⟩ := Node.flatMap_sights_eq_ok h
  rw [← Node.readings_eq_flatMap_visits] at hes
  refine ⟨es, hes, ?_⟩
  have htold := toldOf_ok_append es []
  rw [List.append_nil] at htold
  rw [walk_eq_toldOf, hes, htold]
  simp [toldOf]

/-- A walk over a tree ends at the first import that cannot be read, and has then told what can be read
before it. -/
theorem walk_eq_of_fault {root n : Node} {before after : List Node} (hroot : root.visits = before ++ n :: after)
    (hbefore : ∀ m ∈ before, m.isImport → m.HasReadablePath) (himport : n.isImport)
    (hn : ¬ n.HasReadablePath) :
    ∃ es f, before.flatMap Node.sights = es.map .ok ∧ n.importEvent = .error f ∧
      root.readings = es.map .ok ++ .error f :: after.flatMap Node.sights ∧ walk root = ⟨es, some f⟩ := by
  obtain ⟨es, hes⟩ := Node.flatMap_sights_eq_ok hbefore
  cases hf : n.importEvent with
  | ok e => exact absurd ((n.exists_importEvent_ok_iff).1 ⟨e, hf⟩) hn
  | error f =>
    have hreadings : root.readings = es.map .ok ++ .error f :: after.flatMap Node.sights := by
      rw [Node.readings_eq_flatMap_visits, hroot, List.flatMap_append, hes, List.flatMap_cons, Node.sights,
        if_pos himport, hf]
      rfl
    refine ⟨es, f, hes, rfl, hreadings, ?_⟩
    rw [walk_eq_toldOf, hreadings, toldOf_ok_append]
    simp [toldOf]

/-- The walk with a worklist tells what the recursion over the tree reads: imports, with nothing below them, and
throws before what is below them. It ends after at most one turn for each node and one more. If every import that
it comes to has a readable path, it tells all events in pre-order. Otherwise it ends with the fault in the path of
the first import that has none, and what it has told until then are the events before that import. -/
theorem walk_tells_preorder (root : Node) :
    (∀ n : Node, n.readings =
      let place : Location := ⟨n.span.start.row + 1, n.span.start.column + 1,
        some (n.span.stop.row + 1), some (n.span.stop.column + 1)⟩
      if n.kind = "import" ∨ n.kind = "import_header" then [n.dottedPath.map (.imported · place)]
      else (if n.kind = "throw_expression" ∨
          n.kind = "jump_expression" ∧ n.children.head?.map Node.kind = some "throw" then [.ok (.thrown place)]
        else []) ++ n.children.flatMap Node.readings) ∧
    (∃ turns ≤ root.size + 1, (Walk.start root).Ends turns (walk root)) ∧
    ((∃ es, (∀ n ∈ root.visits, n.isImport → n.HasReadablePath) ∧
        root.readings = es.map .ok ∧ walk root = ⟨es, none⟩) ∨
      (∃ before n after es f c, root.visits = before ++ n :: after ∧
        (∀ m ∈ before, m.isImport → m.HasReadablePath) ∧
        n.isImport ∧ n.pathChild? = some c ∧ ¬ c.text.IsValidUTF8 ∧ decode c.text = .error f ∧
        before.flatMap Node.sights = es.map .ok ∧
        root.readings = es.map .ok ++ .error f :: after.flatMap Node.sights ∧
        walk root = ⟨es, some f⟩)) := by
  refine ⟨Node.readings_eq_of_kind, ?_, ?_⟩
  · obtain ⟨k, hk, hends⟩ := (Walk.start root).ends_outlook
    rw [walk, hends.eq_finish]
    refine ⟨k, ?_, hends⟩
    simpa [Walk.start, Node.sizes] using hk
  · by_cases h : ∀ n ∈ root.visits, n.isImport → n.HasReadablePath
    · obtain ⟨es, hes, hwalk⟩ := walk_eq_of_readable h
      exact Or.inl ⟨es, h, hes, hwalk⟩
    · -- the first import in the list of visits that cannot be read
      right
      obtain ⟨before, n, after, hroot, hbefore, himport, hn⟩ := Node.exists_first_unreadable h
      obtain ⟨es, f, hes, hf, hreadings, hwalk⟩ := walk_eq_of_fault hroot hbefore himport hn
      obtain ⟨c, hc, hd⟩ := Node.importEvent_eq_error hf
      have hbad : ¬ c.text.IsValidUTF8 := Text.Utf8.exists_decode_error_iff.1 ⟨f, hd⟩
      exact ⟨before, n, after, es, f, c, hroot, hbefore, himport, hc, hbad, hd, hes, hreadings, hwalk⟩

end Strata.Syntax
