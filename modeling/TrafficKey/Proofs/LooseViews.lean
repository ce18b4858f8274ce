import TrafficKey.Node
import TrafficKey.Proofs.Runs

/-!
# Views of definitions through loose nodes

A definition is a loose node whose parts fit. So its text, its data and its tree exist as views of the
node, and they are the views of the definition. The warnings also need the labels of group calls, which
are only there if all the arguments of a group call after the first are bare words.
-/

namespace TrafficKey

theorem Argument.toNodes_eq_map (args : List Argument) :
    Argument.toNodes args = args.map Argument.toNode := by
  induction args with
  | nil => rfl
  | cons arg args ih => rw [Argument.toNodes, ih, List.map_cons]

/-! ## Text -/

mutual

theorem Argument.toNode_text : ∀ arg : Argument, arg.toNode.text = .ok arg.text
  | .literal value => rfl
  | .key entry => rfl
  | .nested callee args => by
    rw [Argument.toNode, Node.text, Node.text, Argument.toNodes_texts args]
    simp [Argument.text, bind, Except.bind, pure, Except.pure, String.append_assoc]

theorem Argument.toNodes_texts :
    ∀ args : List Argument, Node.textsAfter ":" (Argument.toNodes args) = .ok (Argument.texts args)
  | [] => rfl
  | arg :: args => by
    rw [Argument.toNodes, Node.textsAfter, Argument.toNode_text arg, Argument.toNodes_texts args]
    rfl

end

theorem Key.toNode_text (key : Key) : key.toNode.text = .ok key.text := by
  cases key with
  | name entry => rfl
  | computed call =>
    rw [Key.toNode, Node.text, Call.toNode, Node.text, Argument.toNodes_texts]
    rfl

theorem Key.toNodes_texts (keys : List Key) :
    Node.textsAfter "," (keys.map Key.toNode) = .ok (Key.texts keys) := by
  induction keys with
  | nil => rfl
  | cons key keys ih =>
    rw [List.map_cons, Node.textsAfter, Key.toNode_text, ih]
    rfl

theorem Definition.toNode_text (d : Definition) : d.toNode.text = .ok d.text := by
  unfold Definition.toNode Definition.text
  cases d.keys with
  | nil => rfl
  | cons key keys =>
    rw [List.map_cons, Node.text, Key.toNode_text, Key.toNodes_texts]
    rfl

/-! ## Data -/

mutual

theorem Argument.toNode_data : ∀ arg : Argument, arg.toNode.argumentData = .ok arg.data
  | .literal value => rfl
  | .key entry => rfl
  | .nested callee args => by
    rw [Argument.toNode, Node.argumentData, Node.callData, Argument.toNodes_data args]
    rfl

theorem Argument.toNodes_data :
    ∀ args : List Argument, Node.argumentsData (Argument.toNodes args) = .ok (Argument.dataOf args)
  | [] => rfl
  | arg :: args => by
    rw [Argument.toNodes, Node.argumentsData, Argument.toNode_data arg, Argument.toNodes_data args]
    rfl

end

theorem Key.toNode_data (key : Key) : key.toNode.keyData = .ok key.data := by
  cases key with
  | name entry => rfl
  | computed call =>
    rw [Key.toNode, Node.keyData, Call.toNode, Node.callData, Argument.toNodes_data]
    rfl

theorem Definition.toNode_data (d : Definition) : d.toNode.data = .ok d.data := by
  have hkeys : (d.keys.map Key.toNode).mapM Node.keyData = .ok (d.keys.map Key.data) := by
    rw [mapM_eq_ok_iff, List.map_map, List.map_map]
    exact List.map_congr_left fun key _ => Key.toNode_data key
  change (do return Data.record [("keys", .list (← (d.keys.map Key.toNode).mapM Node.keyData))]) = _
  rw [hkeys]
  rfl

/-! ## Tree -/

mutual

theorem Argument.toNode_tree (level : Nat) :
    ∀ arg : Argument, arg.toNode.argumentTree level = .ok (arg.treeLines level)
  | .literal value => rfl
  | .key entry => rfl
  | .nested callee args => by
    rw [Argument.toNode, Node.argumentTree, Node.callTree, Argument.toNodes_tree (level + 2) args]
    rfl

theorem Argument.toNodes_tree (level : Nat) :
    ∀ args : List Argument,
      Node.argumentTrees level (Argument.toNodes args) = .ok (Argument.treeLinesOf level args)
  | [] => rfl
  | arg :: args => by
    rw [Argument.toNodes, Node.argumentTrees, Argument.toNode_tree level arg,
      Argument.toNodes_tree level args]
    rfl

end

theorem Key.toNode_tree (key : Key) : key.toNode.keyTree = .ok key.treeLines := by
  cases key with
  | name entry => rfl
  | computed call =>
    rw [Key.toNode, Call.toNode]
    change (do return treeLine 1 "KeyFunction" ::
      (← Node.callTree 2 (.application call.callee.kind call.callee.name
        (Argument.toNodes call.args)))) = _
    rw [Node.callTree, Argument.toNodes_tree]
    rfl

theorem Definition.toNode_tree (d : Definition) : d.toNode.tree = .ok d.tree := by
  have hkeys : (d.keys.map Key.toNode).mapM Node.keyTree = .ok (d.keys.map Key.treeLines) := by
    rw [mapM_eq_ok_iff, List.map_map, List.map_map]
    exact List.map_congr_left fun key _ => Key.toNode_tree key
  change (do
    let lines ← (d.keys.map Key.toNode).mapM Node.keyTree
    return Text.join "\n" (treeHead (d.keys.map Key.toNode).length :: lines.flatten)) = _
  rw [hkeys, List.length_map]
  rfl

/-! ## Equality -/

theorem Callee.beq_eq (f g : Callee) : (f == g) = (f.kind == g.kind && f.name == g.name) := by
  rw [Bool.eq_iff_iff, Bool.and_eq_true, beq_iff_eq, beq_iff_eq, beq_iff_eq, Callee.mk.injEq]

mutual

theorem Argument.toNode_same : ∀ a b : Argument, a.toNode.same b.toNode = a.same b
  | .nested f as, .nested g bs => by
    simp only [Argument.toNode, Node.same, Argument.same, Callee.beq_eq]
    rw [Argument.toNodes_same as bs]
  | .literal _, .literal _ | .literal _, .key _ | .literal _, .nested _ _
  | .key _, .literal _ | .key _, .key _ | .key _, .nested _ _
  | .nested _ _, .literal _ | .nested _ _, .key _ => by
    simp only [Argument.toNode, Node.same, Argument.same]

theorem Argument.toNodes_same : ∀ as bs : List Argument,
    Node.sameAll (Argument.toNodes as) (Argument.toNodes bs) = Argument.sameAll as bs
  | [], [] | [], _ :: _ | _ :: _, [] => by
    simp only [Argument.toNodes, Node.sameAll, Argument.sameAll]
  | a :: as, b :: bs => by
    simp only [Argument.toNodes, Node.sameAll, Argument.sameAll]
    rw [Argument.toNode_same a b, Argument.toNodes_same as bs]

end

theorem Key.toNode_same (a b : Key) : a.toNode.same b.toNode = a.same b := by
  cases a with
  | name entry =>
    cases b with
    | name other => simp only [Key.toNode, Node.same, Key.same]
    | computed call => simp only [Key.toNode, Node.same, Key.same]
  | computed call =>
    cases b with
    | name entry => simp only [Key.toNode, Node.same, Key.same]
    | computed other =>
      simp only [Key.toNode, Call.toNode, Node.same, Key.same, Call.same, Callee.beq_eq]
      rw [Argument.toNodes_same]

/-! ## Accessors -/

/-- The key as an argument of a call. -/
def Key.asArgument : Key → Argument
  | .name entry => .key entry
  | .computed call => call.asArgument

/-- The call has the arguments that the accessors of its kind ask for: a group call has a key and then
labels, a country call has one bare word. -/
structure Call.Regular (c : Call) : Prop where
  group : c.callee.kind = .group → ∃ (key : Key) (labels : List String),
    labels ≠ [] ∧ c.args = key.asArgument :: labels.map Argument.literal
  country : c.callee.kind = .country → ∃ value, c.args = [.literal value]

theorem Key.asArgument_asKey (key : Key) : key.asArgument.toNode.asKey = .ok key.toNode := by
  cases key with
  | name entry => rfl
  | computed call => rfl

theorem Node.mapM_valueField (labels : List String) :
    (Argument.toNodes (labels.map .literal)).mapM Node.valueField = .ok labels := by
  rw [mapM_eq_ok_iff, Argument.toNodes_eq_map, List.map_map, List.map_map]
  exact List.map_congr_left fun label _ => rfl

/-- A group call has only labels after its first argument. -/
def Call.Labelled (c : Call) : Prop :=
  c.callee.kind = .group → ∃ labels : List String, c.args.tail = labels.map Argument.literal

theorem Call.Labelled.labels_eq {c : Call} (h : c.Labelled) (hkind : c.callee.kind = .group) :
    c.toNode.labels = .ok c.labels := by
  obtain ⟨labels, hargs⟩ := h hkind
  have hlabels : c.labels = labels := by
    unfold Call.labels
    rw [hargs, List.filterMap_map]
    exact List.filterMap_some
  unfold Call.toNode
  rw [hkind, Node.labels, Argument.toNodes_eq_map, ← List.map_tail, ← Argument.toNodes_eq_map, hargs,
    hlabels]
  exact Node.mapM_valueField labels

namespace Call.Regular

variable {c : Call}

theorem labelled (h : c.Regular) : c.Labelled := by
  intro hkind
  rcases h.group hkind with ⟨key, labels, -, hargs⟩
  exact ⟨labels, by rw [hargs, List.tail_cons]⟩

/-- A group call has a key and at least one label. -/
theorem group_fields (h : c.Regular) (hkind : c.callee.kind = .group) :
    ∃ key : Key, c.toNode.groupKey = .ok key.toNode ∧ c.toNode.labels = .ok c.labels ∧
      c.labels ≠ [] := by
  rcases h.group hkind with ⟨key, labels, hne, hargs⟩
  refine ⟨key, ?_, h.labelled.labels_eq hkind, ?_⟩
  · unfold Call.toNode
    rw [hkind, hargs]
    exact key.asArgument_asKey
  · unfold Call.labels
    rw [hargs, List.tail_cons, List.filterMap_map]
    simpa [Function.comp_def, Argument.literal?] using hne

/-- The argument of a country call is a string. -/
theorem country_fields (h : c.Regular) (hkind : c.callee.kind = .country) :
    ∃ value, c.toNode.countryArgument = .ok value := by
  rcases h.country hkind with ⟨value, hargs⟩
  refine ⟨value, ?_⟩
  unfold Call.toNode
  rw [hkind, hargs]
  rfl

end Call.Regular

/-! ## Warnings -/

/-- The warnings about the labels of the group calls among these calls. -/
def Call.warningsOf (index : Int) (calls : List Call) : List Warning :=
  (calls.filter (·.callee.kind = .group)).flatMap fun call => Warning.ofLabels index [] call.labels

theorem Call.warningsOf_append (index : Int) (calls more : List Call) :
    Call.warningsOf index (calls ++ more) =
      Call.warningsOf index calls ++ Call.warningsOf index more := by
  unfold Call.warningsOf
  rw [List.filter_append, List.flatMap_append]

theorem Call.toNode_warnings {c : Call} {index : Int} {inner : List Call} (h : c.Labelled)
    (hinner : Node.argumentWarnings index (Argument.toNodes c.args) =
      .ok (Call.warningsOf index inner)) :
    c.toNode.callWarnings index = .ok (Call.warningsOf index (c :: inner)) := by
  unfold Call.toNode
  rw [Node.callWarnings, hinner]
  by_cases hkind : c.callee.kind = .group
  · have hlabels := h.labels_eq hkind
    unfold Call.toNode at hlabels
    rw [if_pos hkind, Node.labelWarnings, hlabels]
    simp [Call.warningsOf, hkind, bind, Except.bind, pure, Except.pure]
  · rw [if_neg hkind]
    simp [Call.warningsOf, hkind, bind, Except.bind, pure, Except.pure]

mutual

theorem Argument.toNode_warnings (index : Int) {rest : List Node} {ws : List Warning}
    (hrest : Node.argumentWarnings index rest = .ok ws) :
    ∀ arg : Argument, (∀ call ∈ arg.calls, call.Labelled) →
      Node.argumentWarnings index (arg.toNode :: rest) =
        .ok (Call.warningsOf index arg.calls ++ ws)
  | .literal _, _ => hrest
  | .key _, _ => hrest
  | .nested callee args, h => by
    rw [Argument.calls, List.forall_mem_cons] at h
    have hcall := Call.toNode_warnings h.1 (Argument.toNodes_warnings index args h.2)
    rw [Call.toNode] at hcall
    rw [Argument.toNode, Node.argumentWarnings, hcall, hrest, Argument.calls]
    rfl

theorem Argument.toNodes_warnings (index : Int) :
    ∀ args : List Argument, (∀ call ∈ Argument.callsOf args, call.Labelled) →
      Node.argumentWarnings index (Argument.toNodes args) =
        .ok (Call.warningsOf index (Argument.callsOf args))
  | [], _ => rfl
  | arg :: args, h => by
    rw [Argument.callsOf, List.forall_mem_append] at h
    rw [Argument.toNodes, Argument.callsOf, Call.warningsOf_append]
    exact Argument.toNode_warnings index (Argument.toNodes_warnings index args h.2) arg h.1

end

theorem Key.toNode_warnings {key : Key} (index : Nat) (h : ∀ call ∈ key.calls, call.Labelled) :
    key.toNode.keyWarnings index = .ok (key.labelWarnings index) := by
  cases key with
  | name entry => rfl
  | computed call =>
    rw [Key.calls, List.forall_mem_cons] at h
    have hcall := Call.toNode_warnings h.1 (Argument.toNodes_warnings index call.args h.2)
    rw [Key.toNode, Node.keyWarnings, hcall]
    rfl

theorem Key.toNode_warningLabel (key : Key) : key.toNode.warningLabel = .ok key.warningLabel := by
  cases key with
  | name entry => rfl
  | computed call => rfl

/-- The keys seen so far are looked through in the same way in both views. -/
theorem Key.toNodes_warnings (keys : List Key) :
    ∀ (index : Nat) (seen : List (Key × Nat)), (∀ key ∈ keys, ∀ call ∈ key.calls, call.Labelled) →
      Node.warningsFrom index (seen.map (Prod.map Key.toNode id)) (keys.map Key.toNode) =
        .ok (Key.warningsFrom index seen keys) := by
  induction keys with
  | nil =>
    intro index seen _
    rfl
  | cons key keys ih =>
    intro index seen h
    rw [List.forall_mem_cons] at h
    have hown := Key.toNode_warnings index h.1
    have hfind : (seen.map (Prod.map Key.toNode id)).find? (·.1.same key.toNode) =
        (seen.find? (·.1.same key)).map (Prod.map Key.toNode id) := by
      rw [List.find?_map]
      congr 2
      funext earlier
      exact Key.toNode_same earlier.1 key
    rw [List.map_cons, Node.warningsFrom, Key.warningsFrom, hfind]
    cases seen.find? (·.1.same key) with
    | some earlier =>
      have hrest := ih (index + 1) seen h.2
      simp only [Option.map_some, Prod.map]
      rw [Key.toNode_warningLabel, hown, hrest]
      rfl
    | none =>
      have hrest := ih (index + 1) (seen ++ [(key, index)]) h.2
      rw [List.map_append, List.map_singleton] at hrest
      change Node.warningsFrom (index + 1) (_ ++ [(key.toNode, index)]) _ = _ at hrest
      simp only [Option.map_none]
      rw [hown, hrest]
      rfl

theorem Definition.warnings_of_labelled {d : Definition}
    (h : ∀ key ∈ d.keys, ∀ call ∈ key.calls, call.Labelled) :
    d.toNode.warnings = .ok d.warnings :=
  Key.toNodes_warnings d.keys 0 [] h

theorem Definition.toNode_warnings {d : Definition}
    (h : ∀ key ∈ d.keys, ∀ call ∈ key.calls, call.Regular) :
    d.toNode.warnings = .ok d.warnings :=
  warnings_of_labelled fun key hkey call hcall => (h key hkey call hcall).labelled

end TrafficKey
