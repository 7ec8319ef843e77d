import Stencil.Context
import Stencil.Proofs.Privacy.Parts

/-!
# Models as scopes

A model is taken over into a scope member by member, and the bindings that the caller adds come last
(`bindingsOf_importModel`). So an added binding overrides the model, every public member is bound, and
what it is bound to is what member access shows (`importModel_shows`). Names with an underscore in
front are left out of plain objects. Of records they are not: a private field is a variable, though
no member access ever shows it.
-/

namespace Stencil

/-! ## Entries under names -/

/-- A key that is a name is found by its text alone. -/
theorem Value.sameKey_text (k : Value) (id : Nat) (name : String) :
    k.sameKey (.text id name) = match k with
      | .text _ other => other == name
      | _ => false := by
  cases k with
  | text i other =>
    show (i == id && other == name || other == name) = (other == name)
    cases other == name
    · rw [Bool.and_false, Bool.or_false]
    · rw [Bool.or_true]
  | bool | int | float | null | list | tuple | dict | object | record | unprintable | function | method =>
    rfl

theorem bindingsOf_set (name : String) (v : Value) (entries : List (Value × Value)) :
    bindingsOf (Entries.set (.text 0 name) v entries) = Table.set name v (bindingsOf entries) := by
  induction entries with
  | nil => rfl
  | cons entry rest ih =>
    obtain ⟨k, w⟩ := entry
    rw [Entries.set, Value.sameKey_text]
    cases k with
    | text i other =>
      show bindingsOf (if (other == name) = true then _ else _) =
        Table.set name v ((other, w) :: bindingsOf rest)
      rw [Table.set]
      by_cases h : other = name
      · rw [if_pos (beq_iff_eq.mpr h), if_pos h]
        rfl
      · rw [if_neg (mt beq_iff_eq.mp h), if_neg h, ← ih]
        rfl
    | bool | int | float | null | list | tuple | dict | object | record | unprintable | function
    | method => exact ih

/-- Bindings that are put under their names one after the other. -/
theorem bindingsOf_setAll (more : List (String × Value)) (entries : List (Value × Value)) :
    bindingsOf (more.foldl (fun d (name, v) => Entries.set (.text 0 name) v d) entries) =
      Table.update (bindingsOf entries) more := by
  induction more generalizing entries with
  | nil => rfl
  | cons b more ih => exact (ih _).trans (congrArg (Table.update · more) (bindingsOf_set b.1 b.2 entries))

theorem bindingsOf_ofList (bindings : List (String × Value)) :
    bindingsOf (Entries.ofList (bindings.map fun (name, v) => (.text 0 name, v))) =
      Table.ofList bindings := by
  rw [Entries.ofList, List.foldl_map]
  exact bindingsOf_setAll bindings []

/-! ## The last of several bindings -/

theorem attribute?_cons (name other : String) (v : Value) (more : List (String × Value)) :
    attribute? name ((other, v) :: more) =
      (attribute? name more).or (if other = name then some v else none) := by
  rw [attribute?, attribute?, List.reverse_cons, List.find?_append, Option.map_or]
  by_cases h : other = name
  · have hfound : (other == name) = true := beq_iff_eq.mpr h
    simp only [List.find?_cons, hfound, if_pos h, Option.map_some]
  · have hother : (other == name) = false := beq_false_of_ne h
    simp only [List.find?_cons, List.find?_nil, hother, if_neg h, Option.map_none]

/-- Of the bindings of a name, a table that is updated keeps the last one. -/
theorem Table.get?_update (name : String) (t : Table Value) (bindings : List (String × Value)) :
    get? name (t.update bindings) = (attribute? name bindings).or (get? name t) := by
  induction bindings generalizing t with
  | nil => rfl
  | cons b bindings ih =>
    obtain ⟨other, v⟩ := b
    rw [attribute?_cons, Option.or_assoc]
    refine (ih _).trans (congrArg _ ?_)
    by_cases h : other = name
    · rw [h, get?_set_self, if_pos rfl, Option.some_or]
    · rw [get?_set_of_ne (Ne.symm h), if_neg h, Option.none_or]

/-! ## Models -/

namespace Value

/-- Whether a value is an instance of a class of the host: a plain object or a record. -/
def isInstance : Value → Bool
  | .object _ _ _ | .record _ _ _ | .unprintable _ _ _ => true
  | _ => false

/-- The members that a host has given a value: the attributes of an object, the fields of a record. -/
def ownMembers : Value → List (String × Value)
  | .object _ _ attributes => attributes
  | .record _ _ fields => fields
  | _ => []

/-- The fields of a record; other values have none. -/
def fields : Value → List (String × Value)
  | .record _ _ fields => fields
  | _ => []

/-- The members that are taken over into a scope. -/
def importedMembers : Value → List (String × Value)
  | .object _ _ attributes => publicAttributes attributes
  | .record _ _ fields => fields
  | _ => []

theorem attribute?_importedMembers (model : Value) {name : String} (hname : isPrivate name = false) :
    attribute? name model.importedMembers = attribute? name model.ownMembers := by
  cases model with
  | object _ _ attributes => exact attribute?_public hname attributes
  | _ => rfl

/-- A private member is left out, unless it is a field of a record. -/
theorem attribute?_importedMembers_private (model : Value) {name : String}
    (hname : isPrivate name = true) :
    attribute? name model.importedMembers = attribute? name model.fields := by
  cases model with
  | object _ _ attributes =>
    refine Option.map_eq_none_iff.mpr (List.find?_eq_none.mpr fun ⟨other, v⟩ hb hfound => ?_)
    obtain ⟨-, hpublic⟩ := List.mem_filter.mp (List.mem_reverse.mp hb)
    obtain rfl : other = name := beq_iff_eq.mp hfound
    simp only [hname, Bool.not_true, Bool.false_eq_true] at hpublic
  | _ => rfl

variable {model : Value} (h : model.isInstance = true)

include h

theorem modelEntries_of_isInstance : model.modelEntries =
    .ok (model.importedMembers.map fun (name, v) => (.text 0 name, v)) := by
  cases model with
  | object | record | unprintable => rfl
  | _ => cases h

/-- Behind a dot stand the public ones among the members of an instance. -/
theorem member_of_isInstance (name : String) : model.member name =
    if isPrivate name then .null else (attribute? name model.ownMembers).getD .null := by
  cases model with
  | object | record | unprintable => rfl
  | _ => cases h

end Value

/-- The scope of an instance binds its members, and then the further bindings. -/
theorem bindingsOf_importModel {model : Value} (hmodel : model.isInstance = true)
    {more : List (String × Value)} (hmore : ∀ b ∈ more, b.1 ∉ ["cls", "model"]) :
    ∃ entries, importModel model more = .ok entries ∧
      bindingsOf entries = (Table.ofList model.importedMembers).update more := by
  have hnames : checkNames "ScriptObject.from_model" ["cls", "model"] more = .ok () := by
    have hnone : (more.find? fun (name, _) => ["cls", "model"].contains name) = none :=
      List.find?_eq_none.mpr fun b hb => by simpa using hmore b hb
    rw [checkNames, hnone]
  rw [importModel, hnames, Value.modelEntries_of_isInstance hmodel]
  exact ⟨_, rfl, by rw [bindingsOf_setAll, bindingsOf_ofList]⟩

/-- In the scope that an instance is taken over into, a further binding overrides the instance, and a
public name is bound to what member access shows, if the instance has such a member and not otherwise.
A private name, which member access never shows, is bound only to the field of a record. -/
theorem importModel_shows {model : Value} (hmodel : model.isInstance = true)
    {more : List (String × Value)} (hmore : ∀ b ∈ more, b.1 ∉ ["cls", "model"]) :
    ∃ entries, importModel model more = .ok entries ∧ ∀ id name,
      let bound := Context.lookUpScopes name [⟨id, bindingsOf entries⟩]
      (∀ v, attribute? name more = some v → bound = some v) ∧
      (attribute? name more = none → isPrivate name = false →
        bound = attribute? name model.ownMembers ∧ ∀ v, bound = some v → model.member name = v) ∧
      (attribute? name more = none → isPrivate name = true →
        model.member name = .null ∧ bound = attribute? name model.fields) := by
  obtain ⟨entries, himport, hentries⟩ := bindingsOf_importModel hmodel hmore
  refine ⟨entries, himport, fun id name => ?_⟩
  intro bound
  have hbound : bound = (attribute? name more).or (attribute? name model.importedMembers) := by
    show (Table.get? name (bindingsOf entries)).or none = _
    rw [Option.or_none, hentries, Table.get?_update, Table.ofList, Table.get?_update, Table.get?_nil,
      Option.or_none]
  refine ⟨fun v hv => by rw [hbound, hv, Option.some_or], fun hnone hname => ?_, fun hnone hname => ?_⟩
  · rw [hnone, Option.none_or, Value.attribute?_importedMembers model hname] at hbound
    refine ⟨hbound, fun v hv => ?_⟩
    rw [Value.member_of_isInstance hmodel, hname, if_neg Bool.false_ne_true, ← hbound, hv, Option.getD_some]
  · rw [hnone, Option.none_or, Value.attribute?_importedMembers_private model hname] at hbound
    exact ⟨by rw [Value.member_of_isInstance hmodel, hname, if_pos rfl], hbound⟩

/-- An object with a private attribute, which is not taken over, and an attribute that is overridden. -/
theorem importModel_shows_override :
    let model : Value := .object 3 "Account" [("name", .text 4 "Ada"), ("_pin", .int 0 7), ("age", .int 0 36)]
    let more : List (String × Value) := [("age", .int 0 37)]
    (model.isInstance = true ∧ ∀ b ∈ more, b.1 ∉ ["cls", "model"]) ∧
    ∃ entries, importModel model more = .ok entries ∧
      let bound := fun name => Context.lookUpScopes name [⟨5, bindingsOf entries⟩]
      bound "name" = some (.text 4 "Ada") ∧ model.member "name" = .text 4 "Ada" ∧
      bound "age" = some (.int 0 37) ∧ bound "_pin" = none ∧ model.member "_pin" = .null := by
  intro model more
  have hmore : ∀ b ∈ more, b.1 ∉ ["cls", "model"] := by decide
  have hmodel : model.isInstance = true := rfl
  obtain ⟨entries, himport, hshows⟩ := importModel_shows hmodel hmore
  refine ⟨⟨hmodel, hmore⟩, entries, himport, ?_⟩
  obtain ⟨-, hname, -⟩ := hshows 5 "name"
  obtain ⟨hage, -, -⟩ := hshows 5 "age"
  obtain ⟨-, -, hpin⟩ := hshows 5 "_pin"
  obtain ⟨hbound, hmember⟩ := hname rfl (by decide +kernel)
  obtain ⟨hhidden, hunbound⟩ := hpin rfl (by decide +kernel)
  exact ⟨hbound, hmember _ hbound, hage _ rfl, hunbound, hhidden⟩

/-- Not every name that is taken over from an instance is one that member access shows: of a record, the
private fields are taken over too. -/
theorem not_importModel_shows :
    ¬ ∀ (model : Value) (more : List (String × Value)) (entries : List (Value × Value)),
      model.isInstance = true → importModel model more = .ok entries → ∀ id name v,
        attribute? name more = none → Context.lookUpScopes name [⟨id, bindingsOf entries⟩] = some v →
          isPrivate name = false ∧ model.member name = v := by
  intro h
  let model : Value := .record 3 "Account" [("_pin", .int 0 7)]
  obtain ⟨hpublic, -⟩ := h model [] [(.text 0 "_pin", .int 0 7)] rfl rfl 5 "_pin" (.int 0 7) rfl rfl
  exact absurd hpublic (by decide +kernel)

end Stencil
