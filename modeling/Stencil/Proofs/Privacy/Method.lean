import Stencil.Proofs.Privacy.Arithmetic
import Stencil.Proofs.Privacy.Sorting
import Stencil.Value.Method

/-!
# Operations on values that match

What templates call on text, lists, tuples and numbers checks its arguments by their forms, their
numbers, their texts and the names of their types, and looks for values and sorts them by
comparisons. Operations of matching values on matching arguments come to values that match, and
leave stores that do.
-/

namespace Stencil

variable {M : Matching}

/-! ## Arguments -/

section Arguments

variable {v w : Value} (h : v.Matches M w)

include h

theorem indexArgument_matches : indexArgument w = indexArgument v := by
  rw [indexArgument, indexArgument, h.integer?, h.typeName]

theorem boundArgument_matches (nullAllowed : Bool) :
    boundArgument nullAllowed w = boundArgument nullAllowed v := by
  rw [boundArgument, boundArgument, h.integer?, h.isNull]

theorem textArgument_matches : textArgument w = textArgument v := by
  have htype := h.typeName
  cases h with
  | text _ _ => rfl
  | _ => exact congrArg (fun type => Except.error (Fault.notText type)) htype

theorem limitArgument_matches : limitArgument w = limitArgument v := by
  rw [limitArgument, limitArgument, indexArgument_matches h]

end Arguments

section Arguments

variable {vs ws : List Value} (h : List.Forall₂ (Value.Matches M) vs ws)

include h

theorem boundArguments_matches (nullAllowed : Bool) :
    boundArguments nullAllowed ws = boundArguments nullAllowed vs := by
  cases h with
  | nil => rfl
  | cons hv h =>
    cases h with
    | nil => rw [boundArguments, boundArguments, boundArgument_matches hv]
    | cons hw _ =>
      rw [boundArguments, boundArguments, boundArgument_matches hv, boundArgument_matches hw]

theorem withoutArguments_matches {α β : Type} {Q : α → β → Prop} (callee : String) {a : α} {b : β}
    (hab : Q a b) :
    Except.Rel Q (withoutArguments callee vs a) (withoutArguments callee ws b) := by
  unfold withoutArguments
  rw [forall₂_isEmpty h, h.length_eq]
  split
  · exact .ok hab
  · exact .error _

theorem onlyArgument_matches (callee : String) :
    Except.Rel (Value.Matches M) (onlyArgument callee vs) (onlyArgument callee ws) := by
  have hlength := h.length_eq
  cases h with
  | nil => exact .error _
  | cons hv h =>
    cases h with
    | nil => exact .ok hv
    | cons _ _ =>
      unfold onlyArgument
      dsimp only
      rw [hlength]
      exact .error _

theorem searchArguments_matches (callee : String) :
    Except.Rel (fun x y => x.1.Matches M y.1 ∧ y.2 = x.2) (searchArguments callee vs)
      (searchArguments callee ws) := by
  have hlength := h.length_eq
  cases h with
  | nil => exact .error _
  | cons hv h =>
    unfold searchArguments
    dsimp only
    rw [boundArguments_matches h, ← hlength, h.length_eq]
    split
    · exact .error _
    · exact (Except.Rel.refl (fun _ => rfl) _).bind fun _ _ hb => .ok ⟨hv, hb.symm⟩

theorem placeArguments_matches :
    Except.Rel (fun x y => x.1.Matches M y.1 ∧ y.2 = x.2) (placeArguments vs)
      (placeArguments ws) := by
  have hlength := h.length_eq
  cases h with
  | nil => exact .error _
  | cons hv h =>
    unfold placeArguments
    dsimp only
    rw [boundArguments_matches h, ← hlength, h.length_eq]
    split
    · exact .error _
    · exact (Except.Rel.refl (fun _ => rfl) _).bind fun _ _ hb => .ok ⟨hv, hb.symm⟩

/-! ## Text -/

theorem hasAnyAffix_matches (callee : String) (atEnd : Bool) (piece : Option (List Char)) :
    hasAnyAffix callee atEnd piece ws = hasAnyAffix callee atEnd piece vs := by
  induction h with
  | nil => rfl
  | cons hv _ ih =>
    have htype := hv.typeName
    cases hv with
    | text _ affix => rw [hasAnyAffix, hasAnyAffix, ih]
    | _ => exact congrArg (fun type => Except.error (Fault.badAffixMember callee type)) htype

theorem affixTest_matches (callee : String) (atEnd : Bool) (cs : List Char) :
    Except.Rel (Value.Matches M) (affixTest callee atEnd cs vs) (affixTest callee atEnd cs ws) := by
  refine (searchArguments_matches h callee).bind fun x y hxy => ?_
  obtain ⟨affix, bounds⟩ := x
  obtain ⟨affix', _⟩ := y
  obtain ⟨haffix, rfl⟩ := hxy
  have htype : affix'.typeName = affix.typeName := haffix.typeName
  have hfault : Except.Rel (Value.Matches M) (throw (.badAffix callee affix.typeName) : Except Fault Value)
      (throw (.badAffix callee affix'.typeName)) := by
    rw [htype]
    exact .error _
  cases haffix with
  | text _ affix => exact .ok (.bool _)
  | tuple _ hitems =>
    dsimp only
    rw [hasAnyAffix_matches hitems]
    exact (Except.Rel.refl (fun _ => rfl) _).bind fun _ _ hb => .ok (hb ▸ .bool _)
  | _ => exact hfault

theorem joinItems_matches (n : Nat) : joinItems n ws = joinItems n vs := by
  induction h generalizing n with
  | nil => rfl
  | cons hv _ ih =>
    have htype := hv.typeName
    cases hv with
    | text _ text => rw [joinItems, joinItems, ih]
    | _ => exact congrArg (fun type => Except.error (Fault.cannotJoinItem n type)) htype

theorem replaceText_matches (cs : List Char) : replaceText cs ws = replaceText cs vs := by
  have hlength := h.length_eq
  cases h with
  | nil => rfl
  | cons hold h =>
    cases h with
    | nil => rfl
    | cons hnew h =>
      unfold replaceText
      dsimp only
      rw [← hlength, ← h.length_eq, hold.typeName, hnew.typeName]
      split
      · rfl
      · cases hold with
        | text _ _ =>
          cases hnew with
          | text _ _ =>
            cases h with
            | nil => rfl
            | cons hlimit _ =>
              dsimp only [List.head?]
              rw [limitArgument_matches hlimit]
          | _ => rfl
        | _ => rfl

theorem leavesText_matches (cs : List Char) : leavesText cs ws = leavesText cs vs := by
  cases h with
  | nil => rfl
  | cons hold h =>
    cases h with
    | nil => rfl
    | cons hnew h =>
      have hsame := hold.same hnew
      unfold leavesText
      dsimp only
      rw [any_of_forall₂ h fun _ _ hv => by rw [hv.integer?], hsame]
      cases hold <;> rfl

theorem stripText_matches (cs : List Char) : stripText cs ws = stripText cs vs := by
  have hlength := h.length_eq
  cases h with
  | nil => rfl
  | cons hv h =>
    cases h with
    | nil => cases hv <;> rfl
    | cons _ _ =>
      have hfault := congrArg
        (fun n => (.error (.arity "strip" (.expectedAtMost 1 n)) : Except Fault String)) hlength.symm
      cases hv <;> exact hfault

theorem searchText_matches (callee : String) (cs : List Char) :
    searchText callee cs ws = searchText callee cs vs := by
  refine ((searchArguments_matches h callee).bind fun x y hxy => ?_).eq
  dsimp only
  rw [textArgument_matches hxy.1, hxy.2]
  exact .refl (fun _ => rfl) _

theorem countText_matches (callee : String) (cs : List Char) :
    countText callee cs ws = countText callee cs vs := by
  refine ((searchArguments_matches h callee).bind fun x y hxy => ?_).eq
  dsimp only
  rw [textArgument_matches hxy.1, hxy.2]
  exact .refl (fun _ => rfl) _

end Arguments

/-- A text cut into pieces, once it is known how often and where. -/
def cutAt (whole : Value) (cs : List Char) (limit : Option Nat) : Option Value → Computation Value
  | none | some .null =>
    newPieces (if limit == some 0 then Computation.newText else cutFrom whole)
      (Text.splitBlank Text.isBlank (limit.getD cs.length) cs)
  | some (.text _ separator) =>
    if separator = "" then throw .emptySeparator
    else newPieces (cutFrom whole) (Text.split separator.toList limit cs)
  | some v => throw (.notTextOrNone v.typeName)

theorem splitText_eq (whole : Value) (cs : List Char) (arguments : List Value) :
    splitText whole cs arguments =
      if 2 < arguments.length then throw (.arity "split" (.takesAtMost 2 arguments.length))
      else (do
        let limit ← (arguments[1]?).elim (pure none) fun v => Computation.ofExcept (limitArgument v)
        cutAt whole cs limit arguments.head?) := by
  unfold splitText
  dsimp only
  split
  · rfl
  · cases arguments[1]? with
    | none => rfl
    | some v => rfl

namespace Matching

variable (M)

theorem cutFrom {v w : Value} (h : v.Matches M w) (piece : String) :
    Pairs (Value.Matches M) (Store.Matches M) (cutFrom v piece) (cutFrom w piece) := by
  have hnew := M.newText piece
  cases h with
  | text id t =>
    unfold Stencil.cutFrom Computation.changedText
    dsimp only
    split
    · exact .pure (.text id t)
    · exact hnew
  | _ => exact hnew

theorem respelled {v w : Value} (h : v.Matches M w) (text : String) :
    Pairs (Value.Matches M) (Store.Matches M) (respelled v text) (respelled w text) := by
  have hnew := M.newSpelling text
  cases h with
  | text id t =>
    unfold Stencil.respelled Computation.changedText
    dsimp only
    split
    · exact .pure (.text id t)
    · exact hnew
  | _ => exact hnew

theorem newPieces {piece piece' : String → Computation Value}
    (h : ∀ text, Pairs (Value.Matches M) (Store.Matches M) (piece text) (piece' text))
    (pieces : List (List Char)) :
    Pairs (Value.Matches M) (Store.Matches M) (newPieces piece pieces) (newPieces piece' pieces) := by
  refine PairsWith.bind (Q := List.Forall₂ (Value.Matches M)) ?_ fun _ _ hvs => M.newList hvs
  induction pieces with
  | nil => exact .pure .nil
  | cons cs rest ih =>
    rw [List.mapM_cons, List.mapM_cons]
    exact (h _).bind fun _ _ hv => ih.bind fun _ _ hvs => .pure (.cons hv hvs)

theorem cutAt {v w : Value} (hv : v.Matches M w) (cs : List Char) (limit : Option Nat)
    {a b : Option Value} (hab : Option.Rel (Value.Matches M) a b) :
    Pairs (Value.Matches M) (Store.Matches M) (cutAt v cs limit a) (cutAt w cs limit b) := by
  have hblank : Pairs (Value.Matches M) (Store.Matches M) (Stencil.cutAt v cs limit none)
      (Stencil.cutAt w cs limit none) := by
    refine M.newPieces (fun text => ?_) _
    split
    · exact M.newText text
    · exact M.cutFrom hv text
  cases hab with
  | none => exact hblank
  | some hseparator =>
    have htype := hseparator.typeName
    cases hseparator with
    | null => exact hblank
    | text _ separator =>
      unfold Stencil.cutAt
      dsimp only
      split
      · exact .throw trivial
      · exact M.newPieces (M.cutFrom hv) _
    | _ =>
      unfold Stencil.cutAt
      dsimp only
      rw [htype]
      exact .throw trivial

section Calls

variable {vs ws : List Value} (h : List.Forall₂ (Value.Matches M) vs ws)

include h

theorem splitText {v w : Value} (hv : v.Matches M w) (cs : List Char) :
    Pairs (Value.Matches M) (Store.Matches M) (splitText v cs vs) (splitText w cs ws) := by
  rw [splitText_eq, splitText_eq, h.length_eq]
  split
  · exact .throw trivial
  · refine PairsWith.bind (Q := Eq) ?_ fun limit limit' hl => hl ▸ M.cutAt hv cs limit (head?_rel h)
    have hlimit := getElem?_rel h 1
    generalize vs[1]? = a, ws[1]? = b at hlimit
    cases hlimit with
    | none => exact .pure rfl
    | some hlimit =>
      dsimp only [Option.elim_some]
      rw [limitArgument_matches hlimit]
      exact M.answer _

theorem joinText (t : String) :
    Pairs (Value.Matches M) (Store.Matches M) (joinText t vs) (joinText t ws) := by
  refine (M.ofExcept (onlyArgument_matches h _)).bind fun _ _ hitems => ?_
  refine (M.elements? hitems).bind fun items items' hitems => ?_
  cases hitems with
  | none => exact .throw trivial
  | some hitems =>
    dsimp only
    rw [joinItems_matches hitems]
    refine (M.answer _).bind fun texts texts' htexts => ?_
    subst htexts
    cases hitems with
    | nil => exact M.newSpelling _
    | cons hitem hitems =>
      cases hitems with
      | nil => exact .pure hitem
      | cons _ _ => exact M.newSpelling _

/-- Operations of text. -/
theorem textMethod (m : TextMethod) {v w : Value} (hv : v.Matches M w) (t : String) :
    Pairs (Value.Matches M) (Store.Matches M) (m.call v t vs) (m.call w t ws) := by
  have hrecased (cs : List Char) : Pairs (Value.Matches M) (Store.Matches M)
      (do
        let cs ← Computation.ofExcept (withoutArguments ("str." ++ m.name) vs cs)
        Computation.newSpelling (String.ofList cs))
      (do
        let cs ← Computation.ofExcept (withoutArguments ("str." ++ m.name) ws cs)
        Computation.newSpelling (String.ofList cs)) :=
    (M.ofExcept (withoutArguments_matches h _ rfl)).bind fun _ _ hcs => hcs ▸ M.newSpelling _
  cases m with
  | upper => exact hrecased _
  | lower => exact hrecased _
  | capitalize => exact hrecased _
  | isdigit => exact M.ofExcept (withoutArguments_matches h _ (.bool _))
  | strip =>
    unfold TextMethod.call
    dsimp only
    rw [stripText_matches h]
    exact (M.answer _).bind fun _ _ ht => ht ▸ M.cutFrom hv _
  | replace =>
    unfold TextMethod.call
    dsimp only
    rw [replaceText_matches h, leavesText_matches h]
    refine (M.answer _).bind fun text _ ht => ?_
    subst ht
    split
    · exact .pure hv
    · exact M.newSpelling _
  | startswith => exact M.ofExcept (affixTest_matches h _ _ _)
  | endswith => exact M.ofExcept (affixTest_matches h _ _ _)
  | find =>
    unfold TextMethod.call
    dsimp only
    rw [searchText_matches h]
    refine (M.answer _).bind fun place _ hplace => ?_
    subst hplace
    cases place with
    | none => exact M.newInt _
    | some n => exact M.newInt _
  | index =>
    unfold TextMethod.call
    dsimp only
    rw [searchText_matches h]
    refine (M.answer _).bind fun place _ hplace => ?_
    subst hplace
    cases place with
    | none => exact .throw trivial
    | some n => exact M.newInt _
  | count =>
    unfold TextMethod.call
    dsimp only
    rw [countText_matches h]
    exact (M.answer _).bind fun _ _ hcount => hcount ▸ M.newInt _
  | zfill =>
    refine (M.ofExcept (onlyArgument_matches h _)).bind fun width width' hwidth => ?_
    rw [indexArgument_matches hwidth]
    refine (M.answer _).bind fun n _ hn => ?_
    subst hn
    dsimp only
    split
    · exact .throw trivial
    · exact M.respelled hv _
  | split => exact M.splitText h hv _
  | join => exact M.joinText h t

end Calls

end Matching

/-! ## Lists and tuples -/

namespace Store.Matches

variable {s t : Store} (hs : s.Matches M t) {v w : Value} (hv : v.Matches M w) {vs ws : List Value}
  (h : List.Forall₂ (Value.Matches M) vs ws)

include hs hv h

theorem placeOf? (place : Nat) : t.placeOf? w place ws = s.placeOf? v place vs := by
  induction h generalizing place with
  | nil => rfl
  | cons hx _ ih => rw [Store.placeOf?, Store.placeOf?, hs.alike hx hv, ih]

theorem countOf : t.countOf w ws = s.countOf v vs := by
  induction h with
  | nil => rfl
  | cons hx _ ih => rw [Store.countOf, Store.countOf, hs.alike hx hv, ih]

end Store.Matches

/-- Takes the item at a place out of a list; a negative place counts from the end. -/
def takeOut (id : ListId) (items : List Value) (i : Int) : Computation Value := do
  if items.isEmpty then throw .popFromEmptyList
  let i := if i < 0 then i + items.length else i
  if i < 0 then throw .popOutOfRange
  match items[i.toNat]? with
  | none => throw .popOutOfRange
  | some v =>
    Computation.setContents id (items.eraseIdx i.toNat)
    return v

/-- What `pop` does, by the number of its arguments. -/
theorem popItem_eq (id : ListId) (items arguments : List Value) :
    popItem id items arguments =
      match arguments with
      | [] => takeOut id items (-1)
      | [v] => do takeOut id items (← Computation.ofExcept (indexArgument v))
      | v :: w :: rest => throw (.arity "pop" (.expectedAtMost 1 (v :: w :: rest).length)) := by
  match arguments with
  | [] => rfl
  | [v] => rfl
  | v :: w :: rest =>
    unfold popItem
    rw [if_pos (by simp)]
    rfl

namespace Matching

variable (M) {i j : ListId} (hij : M.lists i j) {items items' : List Value}
  (hitems : List.Forall₂ (Value.Matches M) items items') {vs ws : List Value}
  (h : List.Forall₂ (Value.Matches M) vs ws)

include h hitems

theorem placeOf {missing missing' : Value → Computation Fault}
    (hmissing : ∀ v w, v.Matches M w → Pairs Eq (Store.Matches M) (missing v) (missing' w)) :
    Pairs (Value.Matches M) (Store.Matches M) (placeOf items vs missing)
      (placeOf items' ws missing') := by
  refine (M.ofExcept (placeArguments_matches h)).bind fun x y hxy => ?_
  obtain ⟨v, _⟩ := x
  obtain ⟨w, bounds⟩ := y
  obtain ⟨hv, rfl⟩ := hxy
  dsimp only
  rw [← hitems.length_eq]
  have hwindow := List.forall₂_drop (searchWindow items.length bounds).1
    (List.forall₂_take (searchWindow items.length bounds).2 hitems)
  refine (M.read fun s t hs => .of_eq (hs.placeOf? hv hwindow _)).bind fun place _ hplace => ?_
  subst hplace
  cases place with
  | some n => exact M.newInt n
  | none => exact (hmissing v w hv).bind fun _ _ he => he ▸ .throw trivial

theorem countOf (callee : String) :
    Pairs (Value.Matches M) (Store.Matches M) (countOf callee items vs)
      (countOf callee items' ws) := by
  refine (M.ofExcept (onlyArgument_matches h callee)).bind fun v w hv => ?_
  exact (M.read fun s t hs => .of_eq (hs.countOf hv hitems)).bind fun _ _ hcount =>
    hcount ▸ M.newInt _

include hij

theorem popItem :
    Pairs (Value.Matches M) (Store.Matches M) (popItem i items vs) (popItem j items' ws) := by
  have htake (n : Int) : Pairs (Value.Matches M) (Store.Matches M) (takeOut i items n)
      (takeOut j items' n) := by
    unfold takeOut
    rw [forall₂_isEmpty hitems, ← hitems.length_eq]
    dsimp only
    generalize (if n < 0 then n + (items.length : Int) else n) = m
    split
    · exact .throw trivial
    · split
      · exact .throw trivial
      · have hitem := getElem?_rel hitems m.toNat
        generalize items[m.toNat]? = a, items'[m.toNat]? = b at hitem
        cases hitem with
        | none => exact .throw trivial
        | some hv =>
          have hrest : List.Forall₂ (Value.Matches M) (items.eraseIdx m.toNat)
              (items'.eraseIdx m.toNat) := by
            rw [List.eraseIdx_eq_take_drop_succ, List.eraseIdx_eq_take_drop_succ]
            exact List.rel_append (List.forall₂_take _ hitems) (List.forall₂_drop _ hitems)
          exact (M.setContents hij hrest).bind fun _ _ _ => .pure hv
  rw [popItem_eq, popItem_eq]
  cases h with
  | nil => exact htake (-1)
  | cons hv hrest =>
    cases hrest with
    | nil =>
      dsimp only
      rw [indexArgument_matches hv]
      exact (M.answer _).bind fun n _ hn => hn ▸ htake n
    | cons _ hrest =>
      dsimp only
      rw [List.length_cons, List.length_cons, hrest.length_eq]
      exact .throw trivial

theorem insertItem :
    Pairs (Value.Matches M) (Store.Matches M) (insertItem i items vs) (insertItem j items' ws) := by
  have harity : Pairs (Value.Matches M) (Store.Matches M)
      (throw (.arity "insert" (.expected 2 vs.length)) : Computation Value)
      (throw (.arity "insert" (.expected 2 ws.length))) := h.length_eq ▸ .throw trivial
  cases h with
  | nil => exact harity
  | cons hplace h =>
    cases h with
    | nil => exact harity
    | cons hv h =>
      cases h with
      | cons _ _ => exact harity
      | nil =>
        unfold Stencil.insertItem
        dsimp only
        rw [indexArgument_matches hplace, ← hitems.length_eq]
        refine (M.answer _).bind fun n _ hn => ?_
        subst hn
        refine (M.setContents hij ?_).bind fun _ _ _ => .pure .null
        exact List.rel_append (List.forall₂_take _ hitems) (.cons hv (List.forall₂_drop _ hitems))

omit h hitems in
theorem endSort (failure : Option Fault) {sorted sorted' : List Value}
    (hsorted : List.Forall₂ (Value.Matches M) sorted sorted') :
    Pairs (Value.Matches M) (Store.Matches M)
      (do
        Computation.setContents i sorted
        match failure with
        | some e => throw e
        | none => return Value.null)
      (do
        Computation.setContents j sorted'
        match failure with
        | some e => throw e
        | none => return Value.null) := by
  refine (M.setContents hij hsorted).bind fun _ _ _ => ?_
  cases failure with
  | some e => exact .throw trivial
  | none => exact .pure .null

theorem sortItems :
    Pairs (Value.Matches M) (Store.Matches M) (sortItems i items vs) (sortItems j items' ws) := by
  unfold Stencil.sortItems
  dsimp only
  rw [forall₂_isEmpty h, h.length_eq]
  split
  · exact .throw trivial
  · split
    · exact .throw trivial
    · refine (M.setContents hij .nil).bind fun _ _ _ => .get fun s t hs => ?_
      have hless (v w v' w' : Value) (h : v.Matches M w) (h' : v'.Matches M w') :
          t.compareBy .lt w w' = s.compareBy .lt v v' := hs.compareBy .lt h h'
      obtain ⟨hsorted, hfailure⟩ := Sorting.sort_rel hless hitems
      rw [hfailure]
      exact M.endSort hij _ hsorted s t hs

end Matching

namespace Matching

variable (M) {vs ws : List Value} (h : List.Forall₂ (Value.Matches M) vs ws)

include h

theorem listMethod (m : ListMethod) {i j : ListId} (hij : M.lists i j) :
    Pairs (Value.Matches M) (Store.Matches M) (m.call i vs) (m.call j ws) := by
  have hreplace {items items' : List Value} (hitems : List.Forall₂ (Value.Matches M) items items') :
      Pairs (Value.Matches M) (Store.Matches M)
        (do Computation.setContents i items; return .null)
        (do Computation.setContents j items'; return .null) :=
    (M.setContents hij hitems).bind fun _ _ _ => .pure .null
  cases m with
  | append =>
    exact (M.ofExcept (onlyArgument_matches h _)).bind fun _ _ hv =>
      (M.push hij hv).bind fun _ _ _ => .pure .null
  | extend =>
    refine (M.ofExcept (onlyArgument_matches h _)).bind fun _ _ hv => ?_
    refine (M.elements hv).bind fun more more' hmore => ?_
    refine PairsWith.bind (Q := fun _ _ => True) ?_ fun _ _ _ => .pure .null
    induction hmore with
    | nil => exact .pure trivial
    | cons hx _ ih => exact (M.push hij hx).bind fun _ _ _ => ih
  | insert => exact (M.contents hij).bind fun _ _ hitems => M.insertItem hij hitems h
  | pop => exact (M.contents hij).bind fun _ _ hitems => M.popItem hij hitems h
  | clear =>
    exact (M.ofExcept (withoutArguments_matches h _ .nil)).bind fun _ _ hitems => hreplace hitems
  | reverse =>
    refine (M.contents hij).bind fun _ _ hitems => ?_
    exact (M.ofExcept (withoutArguments_matches h _ (List.rel_reverse hitems))).bind
      fun _ _ hitems => hreplace hitems
  | sort => exact (M.contents hij).bind fun _ _ hitems => M.sortItems hij hitems h
  | copy =>
    refine (M.contents hij).bind fun _ _ hitems => ?_
    exact (M.ofExcept (withoutArguments_matches h _ hitems)).bind fun _ _ hitems => M.newList hitems
  | count => exact (M.contents hij).bind fun _ _ hitems => M.countOf hitems h _
  | index =>
    refine (M.contents hij).bind fun _ _ hitems => M.placeOf hitems h fun v w hv => .get ?_
    intro s t hs
    rw [hs.quoted hv]
    exact .ok rfl hs

/-! ## All operations -/

omit h in
theorem invokeDirectly_matches (typeName : String) (h : List.Forall₂ (Value.Matches M) vs ws) :
    invokeDirectly typeName ws = invokeDirectly typeName vs := by
  have hlength := h.length_eq
  unfold invokeDirectly
  cases h with
  | nil => rfl
  | cons hx h =>
    cases h with
    | nil => rfl
    | cons _ h =>
      cases h with
      | nil => rfl
      | cons _ h =>
        dsimp only
        rw [hx.typeName, h.length_eq, hlength]

/-- Operations of matching values come to matching values. -/
theorem method (m : Method) {v w : Value} (hv : v.Matches M w) :
    Pairs (Value.Matches M) (Store.Matches M) (m.call v vs) (m.call w ws) := by
  have hnone : Pairs (Value.Matches M) (Store.Matches M) (pure .null : Computation Value)
      (pure .null) := .pure .null
  cases m with
  | text m =>
    cases hv with
    | text id t => exact M.textMethod h m (.text id t) t
    | _ => exact hnone
  | list m =>
    cases hv with
    | list hij => exact M.listMethod h m hij
    | _ => exact hnone
  | tupleCount =>
    cases hv with
    | tuple id hitems => exact M.countOf hitems h _
    | _ => exact hnone
  | tupleIndex =>
    cases hv with
    | tuple id hitems => exact M.placeOf hitems h fun _ _ _ => .pure rfl
    | _ => exact hnone
  | invoke =>
    show Pairs (Value.Matches M) (Store.Matches M)
      (throw (invokeDirectly v.typeName vs) : Computation Value)
      (throw (invokeDirectly w.typeName ws))
    rw [hv.typeName, M.invokeDirectly_matches _ h]
    exact .throw trivial
  | bitLength =>
    refine PairsWith.bind (Q := Eq) ?_ fun n _ hn => hn ▸ M.newInt n
    rw [hv.integer?, hv.typeName]
    exact M.ofExcept (withoutArguments_matches h _ rfl)
  | isInteger =>
    refine M.ofExcept ?_
    rw [hv.double?]
    exact withoutArguments_matches h _ (.bool _)

end Matching

end Stencil
