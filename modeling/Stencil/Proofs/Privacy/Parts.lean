import Stencil.Proofs.Privacy.Comparison

/-!
# Showing values that match, and taking them apart

A host object is shown by the name of its type, never by what it holds, so matching values have the
same texts. What stands behind a dot or in brackets is never a private attribute: parts of matching
values match. The same goes for what values are gone through by.
-/

namespace Stencil

variable {M : Matching}

/-! ## Text -/

/-- Results for the items of lists that are related, one after the other. -/
theorem mapM_of_forall₂ {α β γ ε : Type} {R : α → β → Prop} {f : α → Except ε γ} {g : β → Except ε γ}
    (hfg : ∀ a b, R a b → g b = f a) {as : List α} {bs : List β} (h : List.Forall₂ R as bs) :
    bs.mapM g = as.mapM f := by
  induction h with
  | nil => rfl
  | cons hab _ ih => rw [List.mapM_cons, List.mapM_cons, hfg _ _ hab, ih]

section Texts

variable {part part' : Value → Except Fault String}
  (hpart : ∀ v w, v.Matches M w → part' w = part v)

include hpart

theorem entryTexts_matches {xs ys : List (Value × Value)} (h : List.Forall₂ (Entry.Matches M) xs ys) :
    (ys.mapM fun (k, v) => do return (← part' k) ++ ": " ++ (← part' v)) =
      xs.mapM fun (k, v) => do return (← part k) ++ ": " ++ (← part v) :=
  mapM_of_forall₂ (fun _ _ hxy => by dsimp only; rw [hpart _ _ hxy.1, hpart _ _ hxy.2]) h

theorem fieldTexts_matches {as bs : List (String × Value)} (h : Table.Rel (Value.Matches M) as bs) :
    (bs.mapM fun (name, v) => do return name ++ "=" ++ (← part' v)) =
      as.mapM fun (name, v) => do return name ++ "=" ++ (← part v) :=
  mapM_of_forall₂ (fun _ _ hab => by dsimp only; rw [hab.1, hpart _ _ hab.2]) h

end Texts

theorem Value.Matches.quotedAtom {v w : Value} (h : v.Matches M w) : w.quotedAtom = v.quotedAtom := by
  cases h with
  | method m hv =>
    cases hv with
    | function _ _ => rfl
    | _ => cases m <;> rfl
  | _ => rfl

namespace Store.Matches

variable {s t : Store} (hs : s.Matches M t)

include hs

theorem quotedWithin (depth : Nat) {outer outer' : List Value}
    (ho : List.Forall₂ (Value.Matches M) outer outer') {v w : Value} (h : v.Matches M w) :
    t.quotedWithin depth outer' w = s.quotedWithin depth outer v := by
  induction depth generalizing outer outer' v w with
  | zero => rfl
  | succ depth ih =>
    have hagain : outer'.any w.same = outer.any v.same := any_of_forall₂ ho fun _ _ hx => h.same hx
    have hpart (x y : Value) (hxy : x.Matches M y) :
        t.quotedWithin depth (w :: outer') y = s.quotedWithin depth (v :: outer) x :=
      ih (.cons h ho) hxy
    cases h with
    | list hi =>
      simp only [Store.quotedWithin, hagain, mapM_of_forall₂ hpart (hs.contents hi)]
    | tuple id hvs =>
      cases hvs with
      | nil => simp only [Store.quotedWithin, hagain, List.mapM_nil]
      | cons hx hrest =>
        cases hrest with
        | nil => simp only [Store.quotedWithin, hagain, hpart _ _ hx]
        | cons hy hrest =>
          simp only [Store.quotedWithin, hagain, List.isEmpty_cons,
            mapM_of_forall₂ hpart (.cons hx (.cons hy hrest))]
    | dict id hk hv =>
      simp only [Store.quotedWithin, hagain,
        entryTexts_matches hpart (Value.Matches.entries (.dict id hk hv))]
    | record id type hn hv =>
      simp only [Store.quotedWithin, hagain,
        fieldTexts_matches hpart (Value.Matches.fields (.record id type hn hv))]
    | method m hv => exact Value.Matches.quotedAtom (.method m hv)
    | _ => rfl

theorem quoted {v w : Value} (h : v.Matches M w) : t.quoted w = s.quoted v :=
  hs.quotedWithin depthLimit .nil h

theorem bare {v w : Value} (h : v.Matches M w) : t.bare w = s.bare v := by
  have hquoted := hs.quoted h
  cases h with
  | text _ _ => rfl
  | _ => exact hquoted

theorem displayWithin (depth : Nat) {v w : Value} (h : v.Matches M w) :
    t.displayWithin depth w = s.displayWithin depth v := by
  induction depth generalizing v w with
  | zero => rfl
  | succ depth ih =>
    have hpart (v w : Value) (h : v.Matches M w) :
        t.displayWithin depth w = s.displayWithin depth v := ih h
    have hquoted := hs.quoted h
    cases h with
    | list hi => rw [Store.displayWithin, Store.displayWithin, mapM_of_forall₂ hpart (hs.contents hi)]
    | tuple id hvs => rw [Store.displayWithin, Store.displayWithin, mapM_of_forall₂ hpart hvs]
    | dict id hk hv =>
      rw [Store.displayWithin, Store.displayWithin,
        entryTexts_matches hpart (Value.Matches.entries (.dict id hk hv))]
    | null => rfl
    | text _ _ => rfl
    | bool _ => rfl
    | _ => exact hquoted

/-- Matching values are written in the same way. -/
theorem display {v w : Value} (h : v.Matches M w) : t.display w = s.display v :=
  hs.displayWithin depthLimit h

end Store.Matches

/-! ## Members -/

theorem getD_matches {a b : Option Value} (h : Option.Rel (Value.Matches M) a b) :
    (a.getD .null).Matches M (b.getD .null) := by
  cases h with
  | none => exact .null
  | some h => exact h

theorem named?_rel {α : Type} {nameOf : α → String} {name : String} {all : List α} {f g : α → Value}
    (hfg : ∀ m, (f m).Matches M (g m)) :
    Option.Rel (Value.Matches M) ((named? nameOf name all).map f) ((named? nameOf name all).map g) := by
  cases named? nameOf name all with
  | none => exact .none
  | some m => exact .some (hfg m)

theorem attribute?_rel {as bs : List (String × Value)} (h : Table.Rel (Value.Matches M) as bs)
    (name : String) :
    Option.Rel (Value.Matches M) (attribute? name as) (attribute? name bs) := by
  have hfind {as bs : List (String × Value)} (h : Table.Rel (Value.Matches M) as bs) :
      Option.Rel (Value.Matches M) ((as.find? fun (n, _) => n == name).map (·.2))
        ((bs.find? fun (n, _) => n == name).map (·.2)) := by
    induction h with
    | nil => exact .none
    | @cons a b _ _ hab _ ih =>
      have hn : (b.1 == name) = (a.1 == name) := by rw [hab.1]
      simp only [List.find?_cons, hn]
      cases a.1 == name with
      | true => exact .some hab.2
      | false => exact ih
  exact hfind (List.rel_reverse h)

/-- A name that is not private is found among the public attributes. -/
theorem attribute?_public {name : String} (hn : isPrivate name = false)
    (attributes : List (String × Value)) :
    attribute? name (publicAttributes attributes) = attribute? name attributes := by
  rw [attribute?, attribute?, publicAttributes, ← List.filter_reverse, List.find?_filter]
  congr 2
  funext ⟨other, v⟩
  by_cases ho : other = name
  · subst ho
    simp [hn]
  · simp [ho]

namespace Value.Matches

theorem publicMember? {v w : Value} (h : v.Matches M w) {name : String}
    (hn : isPrivate name = false) :
    Option.Rel (Value.Matches M) (v.publicMember? name) (w.publicMember? name) := by
  cases h with
  | object id type hns hvs =>
    have hrel := attribute?_rel (Value.Matches.attributes (.object id type hns hvs)) name
    rwa [attribute?_public hn, attribute?_public hn] at hrel
  | record id type hns hvs =>
    exact attribute?_rel (Value.Matches.fields (.record id type hns hvs)) name
  | text id s => exact named?_rel fun m => .method _ (.text id s)
  | list hi => exact named?_rel fun m => .method _ (.list hi)
  | tuple id hvs => exact named?_rel fun m => .method _ (.tuple id hvs)
  | int id n =>
    dsimp only [Value.publicMember?]
    split_ifs
    · exact .some (.int _ _)
    · exact .some (.int _ _)
    · exact .some (.method _ (.int _ _))
    · exact .none
  | bool b =>
    dsimp only [Value.publicMember?]
    split_ifs
    · exact .some (.int _ _)
    · exact .some (.int _ _)
    · exact .some (.method _ (.bool _))
    · exact .none
  | float id x =>
    dsimp only [Value.publicMember?]
    split_ifs
    · exact .some (.float _ _)
    · exact .some (.float _ _)
    · exact .some (.method _ (.float _ _))
    · exact .none
  | function id f =>
    dsimp only [Value.publicMember?]
    split_ifs
    · exact .some (.method _ (.function _ _))
    · exact .none
  | _ => exact .none

/-- What stands behind a dot matches: a private name names nothing on either side. -/
theorem member {v w : Value} (h : v.Matches M w) (name : String) :
    (v.member name).Matches M (w.member name) := by
  have hrest : (if isPrivate name then Value.null else (v.publicMember? name).getD .null).Matches M
      (if isPrivate name then .null else (w.publicMember? name).getD .null) := by
    cases hn : isPrivate name with
    | true => exact .null
    | false => exact getD_matches (h.publicMember? hn)
  cases h with
  | dict id hk hv =>
    exact getD_matches (Entries.get?_matches (entries (.dict id hk hv)) (.text 0 name))
  | _ => exact hrest

/-- What an object is invoked through is no private attribute. -/
theorem invocation? {v w : Value} (h : v.Matches M w) :
    Option.Rel (Value.Matches M) v.invocation? w.invocation? := by
  have hfilter {a b : Option Value} (hab : Option.Rel (Value.Matches M) a b) :
      Option.Rel (Value.Matches M) (a.filter (!·.isNull)) (b.filter (!·.isNull)) := by
    cases hab with
    | none => exact .none
    | some hv =>
      simp only [Option.filter_some, hv.isNull]
      split
      · exact .some hv
      · exact .none
  cases h with
  | object id type hns hvs =>
    have hrel := attribute?_rel (attributes (.object id type hns hvs)) "invoke"
    rw [attribute?_public (by decide), attribute?_public (by decide)] at hrel
    exact hfilter hrel
  | record id type hns hvs =>
    exact hfilter (attribute?_rel (fields (.record id type hns hvs)) "invoke")
  | _ => exact .none

end Value.Matches

/-! ## Computations -/

namespace Matching

variable (M) {v w k l : Value}

theorem member (h : v.Matches M w) (name : String) :
    Pairs (Value.Matches M) (Store.Matches M) (Computation.member v name)
      (Computation.member w name) := by
  have hmember := h.member name
  have hrest : Pairs (Value.Matches M) (Store.Matches M) (pure (v.member name) : Computation Value)
      (pure (w.member name)) := .pure hmember
  cases h with
  | float id x =>
    unfold Computation.member
    split
    · exact M.newFloat _
    · exact hrest
  | _ => exact hrest

theorem display (h : v.Matches M w) :
    Pairs Eq (Store.Matches M) (Computation.display v) (Computation.display w) :=
  M.read fun _ _ hs => .of_eq (hs.display h)

theorem bare (h : v.Matches M w) :
    Pairs Eq (Store.Matches M) (Computation.bare v) (Computation.bare w) :=
  M.read fun _ _ hs => .of_eq (hs.bare h)

theorem compareBy (op : Comparison) {v' w' : Value} (h : v.Matches M w) (h' : v'.Matches M w') :
    Pairs Eq (Store.Matches M) (Computation.compareBy op v v') (Computation.compareBy op w w') :=
  M.read fun _ _ hs => .of_eq (hs.compareBy op h h')

/-- What stands in brackets matches. -/
theorem item (h : v.Matches M w) (hk : k.Matches M l) :
    Pairs (Value.Matches M) (Store.Matches M) (Computation.item v k) (Computation.item w l) := by
  have hfault : Pairs (Value.Matches M) (Store.Matches M)
      (throw (.notIndexable v.typeName k.typeName) : Computation Value)
      (throw (.notIndexable w.typeName l.typeName)) := by
    rw [h.typeName, hk.typeName]
    exact .throw trivial
  have hmember (name : String) := M.member h name
  cases h with
  | null => exact .pure .null
  | dict id hks hvs =>
    exact (M.ofExcept (Entries.lookUp_matches (Value.Matches.entries (.dict id hks hvs)) hk)).bind
      fun _ _ hab => .pure (getD_matches hab)
  | list hi =>
    cases hk with
    | int _ n =>
      refine PairsWith.get fun s t hs => .ok (getD_matches ?_) hs
      have hitem := atIndex?_rel (hs.contents hi) n
      simpa only [Store.size_eq, Store.item?_eq, atIndex?] using hitem
    | text _ name => exact hmember name
    | _ => exact hfault
  | tuple _ hvs =>
    cases hk with
    | int _ n => exact .pure (getD_matches (atIndex?_rel hvs n))
    | text _ name => exact hmember name
    | _ => exact hfault
  | text _ text =>
    cases hk with
    | int _ n =>
      unfold Computation.item
      dsimp only
      cases atIndex? text.toList n with
      | none => exact .pure .null
      | some c => exact M.newText _
    | text _ name => exact hmember name
    | _ => exact hfault
  | _ =>
    cases hk with
    | text _ name => exact hmember name
    | _ => exact hfault

theorem characters (cs : List Char) :
    Pairs (List.Forall₂ (Value.Matches M)) (Store.Matches M) (cs.mapM Computation.newCharacter)
      (cs.mapM Computation.newCharacter) := by
  induction cs with
  | nil => exact .pure .nil
  | cons c cs ih =>
    rw [List.mapM_cons]
    exact (M.newText _).bind fun _ _ hv => ih.bind fun _ _ hvs => .pure (.cons hv hvs)

theorem elements? (h : v.Matches M w) :
    Pairs (Option.Rel (List.Forall₂ (Value.Matches M))) (Store.Matches M) (Computation.elements? v)
      (Computation.elements? w) := by
  cases h with
  | text _ text => exact (M.characters text.toList).bind fun _ _ hvs => .pure (.some hvs)
  | list hi => exact (M.contents hi).bind fun _ _ hvs => .pure (.some hvs)
  | tuple _ hvs => exact .pure (.some hvs)
  | dict _ hk _ => exact .pure (.some hk)
  | _ => exact .pure .none

theorem elements (h : v.Matches M w) :
    Pairs (List.Forall₂ (Value.Matches M)) (Store.Matches M) (Computation.elements v)
      (Computation.elements w) := by
  refine (M.elements? h).bind fun a b hab => ?_
  cases hab with
  | none => exact h.typeName ▸ .throw trivial
  | some hvs => exact .pure hvs

theorem length (h : v.Matches M w) :
    Pairs Eq (Store.Matches M) (Computation.length v) (Computation.length w) := by
  refine (M.elements? h).bind fun a b hab => ?_
  cases hab with
  | none => exact h.typeName ▸ .throw trivial
  | some hvs => exact .pure hvs.length_eq

end Matching

end Stencil
