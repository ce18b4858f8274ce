import Mathlib
import TrafficKey.Fuzz.Mutation

/-!
# What is drawn

What the generators and the mutations can give, whatever is drawn. Every choice is made from something,
every place is inside its text, and each result is described without the draws that led to it. Where a
text has nothing that a mutation could change, the description says what is done instead.
-/

namespace TrafficKey.Fuzz

variable {α β : Type}

/-! ## Rules for draws -/

/-- Whatever is drawn, the result has the property. -/
def Gen.Always (g : Gen α) (p : α → Prop) : Prop :=
  ∀ draws, p (g draws).1

namespace Gen.Always

variable {p : α → Prop} {q : β → Prop}

theorem imp {p' : α → Prop} {g : Gen α} (h : g.Always p) (himp : ∀ a, p a → p' a) : g.Always p' :=
  fun draws => himp _ (h draws)

theorem pure {a : α} (h : p a) : Gen.Always (Pure.pure a) p :=
  fun _ => h

theorem bind {g : Gen α} {f : α → Gen β} (hg : g.Always p) (hf : ∀ a, p a → (f a).Always q) :
    Gen.Always (g >>= f) q :=
  fun draws => hf _ (hg draws) _

theorem below {n : Nat} {hn : 0 < n} : (Gen.below n hn).Always fun _ => True :=
  fun _ => trivial

theorem thousandth : Gen.thousandth.Always fun _ => True :=
  fun _ => trivial

theorem chance {perMille : Nat} : (Gen.chance perMille).Always fun _ => True :=
  fun _ => trivial

/-- A number between two others is there, as these are in order. -/
theorem between {low high : Nat} (h : low ≤ high) :
    (Gen.between low high).Always fun n => low ≤ n ∧ n ≤ high := by
  unfold Gen.between
  refine bind below ?_
  intro i _
  refine pure ?_
  have hi := i.isLt
  constructor
  · omega
  · omega

theorem choose {xs : List α} {hne : xs ≠ []} : (Gen.choose xs hne).Always fun x => x ∈ xs := by
  unfold Gen.choose
  exact bind below fun i _ => pure (xs.get_mem i)

theorem ite {c : Prop} [Decidable c] {x y : Gen α} (hx : c → x.Always p) (hy : ¬c → y.Always p) :
    Gen.Always (if c then x else y) p := by
  split
  · exact hx ‹_›
  · exact hy ‹_›

theorem dite {c : Prop} [Decidable c] {x : c → Gen α} {y : ¬c → Gen α} (hx : ∀ h, (x h).Always p)
    (hy : ∀ h, (y h).Always p) : Gen.Always (if h : c then x h else y h) p := by
  split
  · exact hx ‹_›
  · exact hy ‹_›

theorem collect {g : Gen α} (h : g.Always p) :
    ∀ n, (Gen.collect n g).Always fun xs => xs.length = n ∧ ∀ x ∈ xs, p x
  | 0 => pure ⟨rfl, by simp⟩
  | n + 1 => by
    refine bind h ?_
    intro x hx
    refine bind (collect h n) ?_
    intro xs hxs
    refine pure ?_
    constructor
    · rw [List.length_cons, hxs.1]
    · exact List.forall_mem_cons.2 ⟨hx, hxs.2⟩

end Gen.Always

/-! ## Generated lines -/

/-- The text of a call with up to four arguments, which are identifiers or nested calls in brackets. -/
def CallOf (nested : String → Prop) (text : String) : Prop :=
  ∃ (name : String) (args : List String), isName name = true ∧ args.length ≤ 4 ∧
    text = Text.join ":" (name :: args) ∧
    ∀ arg ∈ args, isName arg = true ∨ ∃ inner, nested inner ∧ arg = "[" ++ inner ++ "]"

/-- The text of a call with up to so many levels of nested calls. -/
def CallText : Nat → String → Prop
  | 0 => CallOf fun _ => False
  | levels + 1 => CallOf (CallText levels)

/-- The text of one to four keys, each a known key name or a call. -/
def LineText (text : String) : Prop :=
  ∃ keys : List String, 1 ≤ keys.length ∧ keys.length ≤ 4 ∧ text = Text.join "," keys ∧
    ∀ key ∈ keys, key ∈ keyNames ∨ CallText callLevels key

theorem isName_ofList {cs : List Char} (hne : cs ≠ []) (h : ∀ c ∈ cs, isNameChar c = true) :
    isName (String.ofList cs) = true := by
  unfold isName
  rw [String.toList_ofList, Bool.and_eq_true, List.all_eq_true]
  exact ⟨by simpa using hne, h⟩

theorem identifier_isName : identifier.Always fun name => isName name = true := by
  have hpool : ∀ name ∈ identifiers ++ keyNames, isName name = true := by decide
  have hchars : ∀ c ∈ wordChars, isNameChar c = true := List.all_eq_true.1 (by decide)
  unfold identifier
  refine .bind .chance ?_
  intro pooled _
  refine .ite (fun _ => .imp .choose hpool) fun _ => ?_
  refine .bind (.between (by decide)) ?_
  intro length hlength
  refine .bind (.collect .choose length) ?_
  intro chars h
  refine .pure ?_
  have hne : chars ≠ [] := by
    rintro rfl
    have hzero : length = 0 := h.1.symm
    omega
  exact isName_ofList hne fun c hc => hchars c (h.2 c hc)

theorem callWith_callOf {nested : Option (Gen String)} {p : String → Prop}
    (h : ∀ g ∈ nested, g.Always p) : (callWith nested).Always (CallOf p) := by
  have hfunctions : ∀ name ∈ functions, isName name = true := by decide
  have hargument : (argument nested).Always fun arg =>
      isName arg = true ∨ ∃ inner, p inner ∧ arg = "[" ++ inner ++ "]" := by
    cases nested with
    | none => exact identifier_isName.imp fun _ => Or.inl
    | some g =>
      refine .bind .chance ?_
      intro bracketed _
      refine .ite ?_ ?_
      · intro _
        refine .bind (h g rfl) ?_
        intro inner hinner
        exact .pure (Or.inr ⟨inner, hinner, rfl⟩)
      · intro _
        exact identifier_isName.imp fun _ => Or.inl
  have hargs : ∀ name, isName name = true → Gen.Always (do
      let count ← Gen.between 0 4
      let args ← Gen.collect count (argument nested)
      return Text.join ":" (name :: args)) (CallOf p) := by
    intro name hname
    refine .bind (.between (by decide)) ?_
    intro count hcount
    refine .bind (.collect hargument count) ?_
    intro args hargs
    have hlength : args.length ≤ 4 := hargs.1.trans_le hcount.2
    exact .pure ⟨name, args, hname, hlength, rfl, hargs.2⟩
  unfold callWith
  refine .bind .chance ?_
  intro known _
  refine .ite ?_ ?_
  · intro _
    exact .bind .choose fun name hname => hargs name (hfunctions name hname)
  · intro _
    exact .bind identifier_isName hargs

theorem call_callText : ∀ levels, (call levels).Always (CallText levels)
  | 0 => callWith_callOf (by simp)
  | levels + 1 => by
    refine callWith_callOf ?_
    intro g hg
    cases hg
    exact call_callText levels

theorem line_lineText : line.Always LineText := by
  have hkey : key.Always fun key => key ∈ keyNames ∨ CallText callLevels key := by
    refine .bind .chance ?_
    intro plain _
    refine .ite ?_ ?_
    · intro _
      exact .imp .choose fun _ => Or.inl
    · intro _
      exact (call_callText callLevels).imp fun _ => Or.inr
  unfold line
  refine .bind (.between (by decide)) ?_
  intro count hcount
  refine .bind (.collect hkey count) ?_
  intro keys hkeys
  have hsome : 1 ≤ keys.length := hcount.1.trans_eq hkeys.1.symm
  have hfew : keys.length ≤ 4 := hkeys.1.trans_le hcount.2
  exact .pure ⟨keys, hsome, hfew, rfl, hkeys.2⟩

/-! ## Pieces and places -/

/-- A run of identifier characters, or one character of another kind. -/
def IsPiece (piece : List Char) : Prop :=
  (piece ≠ [] ∧ ∀ c ∈ piece, isNameChar c = true) ∨ ∃ c, piece = [c] ∧ isNameChar c = false

theorem isPiece_singleton (c : Char) : IsPiece [c] := by
  cases hc : isNameChar c with
  | false => exact Or.inr ⟨c, rfl, hc⟩
  | true => exact Or.inl ⟨by simp, by simpa using hc⟩

/-- A piece that begins like an identifier is one. -/
theorem IsPiece.isNameChar_of_cons {c : Char} {cs : List Char} (h : IsPiece (c :: cs))
    (hc : isNameChar c = true) : ∀ d ∈ c :: cs, isNameChar d = true := by
  rcases h with ⟨_, h⟩ | ⟨d, hd, hnot⟩
  · exact h
  · cases hd
    rw [hc] at hnot
    cases hnot

theorem flatten_pieces (cs : List Char) : (pieces cs).flatten = cs := by
  induction cs with
  | nil => rfl
  | cons c cs ih =>
    unfold pieces
    split
    next d run rest heq =>
      rw [heq] at ih
      split <;> simpa using ih
    next => simpa using ih

theorem isPiece_of_mem {cs : List Char} : ∀ piece ∈ pieces cs, IsPiece piece := by
  induction cs with
  | nil => simp [pieces]
  | cons c cs ih =>
    unfold pieces
    split
    next d run rest heq =>
      rw [heq, List.forall_mem_cons] at ih
      split
      next hboth =>
        -- the run after the character begins with an identifier character
        rw [Bool.and_eq_true] at hboth
        have hrun := ih.1.isNameChar_of_cons hboth.2
        exact List.forall_mem_cons.2
          ⟨Or.inl ⟨by simp, List.forall_mem_cons.2 ⟨hboth.1, hrun⟩⟩, ih.2⟩
      next => exact List.forall_mem_cons.2 ⟨isPiece_singleton c, List.forall_mem_cons.2 ih⟩
    next => exact List.forall_mem_cons.2 ⟨isPiece_singleton c, ih⟩

/-- A list around one of its places. -/
theorem eq_append_get (xs : List α) (i : Fin xs.length) :
    xs = xs.take i ++ xs.get i :: xs.drop (i + 1) := by
  rw [List.get_eq_getElem, List.getElem_cons_drop, List.take_append_drop]

theorem mem_namePlaces {ps : List (List Char)} {i : Nat} :
    i ∈ namePlaces ps ↔ i < ps.length ∧ isNameChar ((ps.getD i []).headD ' ') = true := by
  unfold namePlaces
  rw [List.mem_filter, List.mem_range]

/-- At the place of an identifier there is one. -/
theorem of_mem_namePlaces {cs : List Char} {i : Nat} (h : i ∈ namePlaces (pieces cs)) :
    ∃ before after, pieces cs = before ++ (pieces cs).getD i [] :: after ∧ before.length = i ∧
      (pieces cs).getD i [] ≠ [] ∧ ∀ c ∈ (pieces cs).getD i [], isNameChar c = true := by
  obtain ⟨hi, hhead⟩ := mem_namePlaces.1 h
  have hget : (pieces cs).getD i [] = (pieces cs).get ⟨i, hi⟩ := by simp [hi]
  have hpiece := isPiece_of_mem _ ((pieces cs).get_mem ⟨i, hi⟩)
  rw [hget] at hhead ⊢
  refine ⟨_, _, eq_append_get (pieces cs) ⟨i, hi⟩, ?_, ?_⟩
  · exact List.length_take_of_le hi.le
  · rcases hpiece with hname | ⟨c, hc, hnot⟩
    · exact hname
    · rw [hc] at hhead
      rw [List.headD_cons, hnot] at hhead
      cases hhead

/-- A text without identifiers has no identifier character. -/
theorem of_namePlaces_eq_nil {cs : List Char} (h : namePlaces (pieces cs) = []) :
    ∀ c ∈ cs, isNameChar c = false := by
  intro c hc
  rw [← flatten_pieces cs] at hc
  obtain ⟨piece, hpiece, hc⟩ := List.mem_flatten.1 hc
  rcases isPiece_of_mem piece hpiece with ⟨hne, hname⟩ | ⟨d, rfl, hnot⟩
  · obtain ⟨i, hi, rfl⟩ := List.mem_iff_getElem.1 hpiece
    have hplace : i ∈ namePlaces (pieces cs) := by
      obtain ⟨d, run, hrun⟩ := List.exists_cons_of_ne_nil hne
      refine mem_namePlaces.2 ⟨hi, ?_⟩
      have hd := hname d (by simp [hrun])
      simpa [hi, hrun] using hd
    rw [h] at hplace
    cases hplace
  · rw [List.mem_singleton.1 hc]
    exact hnot

/-- Two different members change places. -/
theorem exists_swapAt (xs : List α) {i j : Fin xs.length} (h : i ≠ j) :
    ∃ before a middle b after, xs = before ++ a :: (middle ++ b :: after) ∧
      swapAt xs i j = before ++ b :: (middle ++ a :: after) := by
  wlog hlt : i < j generalizing i j
  · have hji : j < i := by omega
    obtain ⟨before, a, middle, b, after, hxs, hswap⟩ := this h.symm hji
    refine ⟨before, a, middle, b, after, hxs, ?_⟩
    rw [← hswap]
    exact List.set_comm _ _ (by omega)
  have hval : i.val < j.val := hlt
  have hset : ∀ (before middle after : List α) (a b : α),
      ((before ++ a :: (middle ++ b :: after)).set before.length b).set
        (before.length + (middle.length + 1)) a = before ++ b :: (middle ++ a :: after) := by
    intro before middle after a b
    simp
  have hrest : xs.drop (i + 1) =
      (xs.drop (i + 1)).take (j - (i + 1)) ++ xs.get j :: xs.drop (j + 1) := by
    have hj : i.val + 1 + (j.val - (i.val + 1)) = j.val := by omega
    have hcons : xs.get j :: xs.drop (j + 1) = (xs.drop (i + 1)).drop (j - (i + 1)) := by
      rw [List.drop_drop, hj, List.get_eq_getElem, List.getElem_cons_drop]
    rw [hcons, List.take_append_drop]
  have hxs := eq_append_get xs i
  rw [hrest] at hxs
  refine ⟨_, _, _, _, _, hxs, ?_⟩
  have hplaces := hset (xs.take i) ((xs.drop (i + 1)).take (j - (i + 1))) (xs.drop (j + 1))
    (xs.get i) (xs.get j)
  rw [← hxs, List.length_take_of_le i.isLt.le, List.length_take_of_le] at hplaces
  · have hj : i.val + (j.val - (i.val + 1) + 1) = j.val := by omega
    rw [hj] at hplaces
    exact hplaces
  · rw [List.length_drop]
    omega

theorem otherPlace_ne {n : Nat} (i : Fin n) (k : Fin (n - 1)) : i ≠ otherPlace i k := by
  unfold otherPlace
  split
  · intro h
    have hval : i.val = k.val := congrArg Fin.val h
    omega
  · intro h
    have hval : i.val = k.val + 1 := congrArg Fin.val h
    omega

/-! ## Mutations -/

/-- A token or a blank that may be inserted. -/
inductive IsInsertion : String → Prop
  | mark {text : String} (known : text ∈ punctuation) : IsInsertion text
  | function {name : String} (known : name ∈ functions) : IsInsertion (name ++ ":")
  | name {text : String} (identifier : isName text = true) : IsInsertion text
  | blanks {count : Nat} (some : 1 ≤ count) (few : count ≤ 3) : IsInsertion (times count " ")
  | tab : IsInsertion "\t"

/-- The lines that a mutation may turn a line into. -/
inductive Mutation.Changes : Mutation → String → String → Prop
  | insertToken {before text after : String} (insertion : IsInsertion text) :
      Changes .insertToken (before ++ after) (before ++ text ++ after)
  | dropPiece {s : String} {before after : List (List Char)} {piece : List Char}
      (cut : pieces s.toList = before ++ piece :: after) (others : before ++ after ≠ []) :
      Changes .dropPiece s (String.ofList (before ++ after).flatten)
  | keepPiece {s : String} (single : (pieces s.toList).length < 2) : Changes .dropPiece s s
  | swapKeys {s key other : String} {before middle after : List String}
      (cut : Text.split ',' s = before ++ key :: (middle ++ other :: after)) :
      Changes .swapKeys s (Text.join "," (before ++ other :: (middle ++ key :: after)))
  | repeatKey {s : String} (single : (Text.split ',' s).length < 2) :
      Changes .swapKeys s (s ++ "," ++ s)
  | repeatArgument {s arg : String} {before after : List String} {count : Nat}
      (cut : Text.split ':' s = before ++ arg :: after) (inside : before ≠ [])
      (some : 1 ≤ count) (few : count ≤ 3) :
      Changes .repeatArgument s (Text.join ":" (before ++ List.replicate count arg ++ arg :: after))
  | addArgument {s name : String} (single : (Text.split ':' s).length < 2)
      (identifier : isName name = true) : Changes .repeatArgument s (s ++ ":" ++ name)
  | misspell {s : String} {before after : List (List Char)} {start rest replacement : List Char}
      {c : Char} (cut : pieces s.toList = before ++ (start ++ c :: rest) :: after)
      (identifier : ∀ d ∈ start ++ c :: rest, isNameChar d = true)
      (other : replacement = [] ∨ replacement = [c.toUpper] ∨
        ∃ d ∈ lowerLetters ++ digits, replacement = [d]) :
      Changes .misspell s (String.ofList (before ++ (start ++ replacement ++ rest) :: after).flatten)
  | keepSpelling {s : String} (nameless : ∀ c ∈ s.toList, isNameChar c = false) :
      Changes .misspell s s
  | nest {head tail call : String} {depth : Nat} (first : ',' ∉ head.toList)
      (others : tail = "" ∨ ∃ keys, tail = "," ++ keys)
      (called : (':' ∈ head.toList ∧ call = head) ∨
        (':' ∉ head.toList ∧ call = "country:" ++ head))
      (deep : depth ∈ [1, 2, 64, 65]) : Changes .nest (head ++ tail) (nestIn depth call ++ tail)
  | insertSpecial {before text after : String} (special : text ∈ specials) :
      Changes .insertSpecial (before ++ after) (before ++ text ++ after)

theorem exists_insertAt (place : Nat) (text s : String) :
    ∃ before after, s = before ++ after ∧ insertAt place text s = before ++ text ++ after := by
  refine ⟨String.ofList (s.toList.take place), String.ofList (s.toList.drop place), ?_, ?_⟩
  · rw [← String.ofList_append, List.take_append_drop, String.ofList_toList]
  · unfold insertAt
    rw [String.ofList_append, String.ofList_append, String.ofList_toList]

theorem insertToken_changes (s : String) :
    (insertToken s).Always (Mutation.insertToken.Changes s) := by
  unfold insertToken
  refine .bind (.between (Nat.zero_le _)) ?_
  intro place _
  refine .bind .choose ?_
  intro mark hmark
  refine .bind .choose ?_
  intro function hfunction
  refine .bind identifier_isName ?_
  intro name hname
  refine .bind (.between (by decide)) ?_
  intro blanks hblanks
  refine .bind .choose ?_
  intro text htext
  refine .pure ?_
  have hinsertion : IsInsertion text := by
    simp only [List.mem_cons, List.not_mem_nil, or_false] at htext
    rcases htext with rfl | rfl | rfl | rfl | rfl
    · exact .mark hmark
    · exact .function hfunction
    · exact .name hname
    · exact .blanks hblanks.1 hblanks.2
    · exact .tab
  obtain ⟨before, after, hs, hinsert⟩ := exists_insertAt place text s
  rw [hinsert, hs]
  exact .insertToken hinsertion

theorem dropPiece_changes (s : String) : (dropPiece s).Always (Mutation.dropPiece.Changes s) := by
  unfold dropPiece
  refine .dite ?_ ?_
  · intro hlength
    refine .bind .below ?_
    intro i _
    refine .pure ?_
    have hcut := eq_append_get (pieces s.toList) i
    rw [List.eraseIdx_eq_take_drop_succ]
    refine .dropPiece hcut ?_
    intro hnil
    have hzero := congrArg List.length hnil
    rw [List.length_append, List.length_take, List.length_drop, List.length_nil] at hzero
    omega
  · intro hlength
    exact .pure (.keepPiece (by omega))

theorem swapKeys_changes (s : String) : (swapKeys s).Always (Mutation.swapKeys.Changes s) := by
  unfold swapKeys
  refine .dite ?_ ?_
  · intro hlength
    have hswapped : (swapTwo (Text.split ',' s) hlength).Always fun keys =>
        Mutation.swapKeys.Changes s (Text.join "," keys) := by
      refine .bind .below ?_
      intro i _
      refine .bind .below ?_
      intro k _
      refine .pure ?_
      obtain ⟨before, key, middle, other, after, hcut, hswap⟩ :=
        exists_swapAt (Text.split ',' s) (otherPlace_ne i k)
      rw [hswap]
      exact .swapKeys hcut
    exact .bind hswapped fun keys hkeys => .pure hkeys
  · intro hlength
    exact .pure (.repeatKey (by omega))

theorem repeatArgument_changes (s : String) :
    (repeatArgument s).Always (Mutation.repeatArgument.Changes s) := by
  unfold repeatArgument
  refine .dite ?_ ?_
  · intro hlength
    have hrepeated : (repeatOne (Text.split ':' s) hlength).Always fun parts =>
        Mutation.repeatArgument.Changes s (Text.join ":" parts) := by
      refine .bind .below ?_
      intro k _
      refine .bind (.between (by decide)) ?_
      intro count hcount
      refine .pure ?_
      have hk : k.val + 1 < (Text.split ':' s).length := by omega
      have hcut := eq_append_get (Text.split ':' s) ⟨k.val + 1, hk⟩
      have hdrop : (Text.split ':' s).drop (k.val + 1) =
          (Text.split ':' s).get ⟨k.val + 1, hk⟩ :: (Text.split ':' s).drop (k.val + 2) := by
        rw [List.get_eq_getElem, List.getElem_cons_drop]
      have hinside : (Text.split ':' s).take (k.val + 1) ≠ [] := by
        intro hnil
        have hzero := congrArg List.length hnil
        rw [List.length_take, List.length_nil] at hzero
        omega
      rw [hdrop]
      exact .repeatArgument hcut hinside hcount.1 hcount.2
    exact .bind hrepeated fun parts hparts => .pure hparts
  · intro hlength
    refine .bind identifier_isName ?_
    intro name hname
    exact .pure (.addArgument (by omega) hname)

theorem misspell_changes (s : String) : (misspell s).Always (Mutation.misspell.Changes s) := by
  unfold misspell
  refine .dite ?_ ?_
  · intro hplaces
    refine .bind .choose ?_
    intro i hi
    obtain ⟨before, after, hcut, hbefore, hne, hname⟩ := of_mem_namePlaces hi
    -- an identifier is not empty, so there is a character to change
    refine .dite ?_ fun hlength => absurd (List.length_pos_iff.2 hne) hlength
    intro hlength
    refine .bind .below ?_
    intro place _
    refine .bind .choose ?_
    intro other hother
    refine .bind .choose ?_
    intro replacement hreplacement
    refine .pure ?_
    have hset : ∀ changed, (pieces s.toList).set i changed = before ++ changed :: after := by
      intro changed
      rw [hcut, ← hbefore]
      simp
    rw [hset]
    have hsplit := eq_append_get ((pieces s.toList).getD i []) place
    rw [hsplit] at hcut hname
    refine .misspell hcut hname ?_
    simp only [List.mem_cons, List.not_mem_nil, or_false] at hreplacement
    rcases hreplacement with h | h | h
    · exact Or.inl h
    · exact Or.inr (Or.inl h)
    · exact Or.inr (Or.inr ⟨other, hother, h⟩)
  · intro hplaces
    have hnone : namePlaces (pieces s.toList) = [] := by simpa using hplaces
    exact .pure (.keepSpelling (of_namePlaces_eq_nil hnone))

theorem nest_changes (s : String) : (nest s).Always (Mutation.nest.Changes s) := by
  unfold nest
  refine .bind .choose ?_
  intro depth hdepth
  refine .pure ?_
  have hs : s = String.ofList (s.toList.takeWhile (· != ',')) ++
      String.ofList (s.toList.dropWhile (· != ',')) := by
    rw [← String.ofList_append, List.takeWhile_append_dropWhile, String.ofList_toList]
  have hfirst : ',' ∉ (String.ofList (s.toList.takeWhile (· != ','))).toList := by
    rw [String.toList_ofList]
    intro hmem
    have hne := List.mem_takeWhile_imp hmem
    simp at hne
  have hothers : String.ofList (s.toList.dropWhile (· != ',')) = "" ∨
      ∃ keys, String.ofList (s.toList.dropWhile (· != ',')) = "," ++ keys := by
    cases hdrop : s.toList.dropWhile (· != ',') with
    | nil => exact Or.inl rfl
    | cons c rest =>
      have hhead := List.head?_dropWhile_not (· != ',') s.toList
      rw [hdrop] at hhead
      have hc : c = ',' := by simpa using hhead
      rw [hc]
      exact Or.inr ⟨String.ofList rest, @String.ofList_append [','] rest⟩
  nth_rewrite 1 [hs]
  refine .nest hfirst hothers ?_ hdepth
  rw [String.toList_ofList]
  split
  next hcolon => exact Or.inl ⟨by simpa using hcolon, rfl⟩
  next hcolon => exact Or.inr ⟨by simpa using hcolon, rfl⟩

theorem insertSpecial_changes (s : String) :
    (insertSpecial s).Always (Mutation.insertSpecial.Changes s) := by
  unfold insertSpecial
  refine .bind (.between (Nat.zero_le _)) ?_
  intro place _
  refine .bind .choose ?_
  intro text htext
  refine .pure ?_
  obtain ⟨before, after, hs, hinsert⟩ := exists_insertAt place text s
  rw [hinsert, hs]
  exact .insertSpecial htext

/-- Every mutation works on every text. -/
theorem Mutation.apply_changes (m : Mutation) (s : String) : (m.apply s).Always (m.Changes s) := by
  cases m with
  | insertToken => exact insertToken_changes s
  | dropPiece => exact dropPiece_changes s
  | swapKeys => exact swapKeys_changes s
  | repeatArgument => exact repeatArgument_changes s
  | misspell => exact misspell_changes s
  | nest => exact nest_changes s
  | insertSpecial => exact insertSpecial_changes s

/-- So many mutations of any kind turn the first line into the second one. -/
inductive MutatedTimes : Nat → String → String → Prop
  | none (s : String) : MutatedTimes 0 s s
  | more {n : Nat} {s changed mutated : String} {m : Mutation} (change : m.Changes s changed)
      (rest : MutatedTimes n changed mutated) : MutatedTimes (n + 1) s mutated

theorem mutate_changes (s : String) :
    (mutate s).Always fun changed => ∃ m : Mutation, m.Changes s changed := by
  unfold mutate
  refine .bind .choose ?_
  intro m _
  exact (m.apply_changes s).imp fun _ hchange => ⟨m, hchange⟩

theorem mutateTimes_mutatedTimes : ∀ n s, (mutateTimes n s).Always (MutatedTimes n s)
  | 0, s => .pure (.none s)
  | n + 1, s => by
    refine .bind (mutate_changes s) ?_
    rintro changed ⟨m, hchange⟩
    exact (mutateTimes_mutatedTimes n changed).imp fun _ hrest => .more hchange hrest

end TrafficKey.Fuzz
