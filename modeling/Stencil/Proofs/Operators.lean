import Stencil.Evaluation
import Stencil.Proofs.Exit

/-!
# How operators fail

Signs, brackets, comparisons and arithmetic fail with faults of a few kinds, given for each operator
(`Arithmetic.faults`). Evaluation reports some of them as script errors at the place of the operator,
and lets the others pass: what happens to each is said by `operators_located`.
-/

namespace Stencil

variable {α β : Type} {kinds : List FaultKind}

/-! ## Kinds of faults -/

/-- However a partial result fails, it is with a fault of one of these kinds. -/
def FaultsIn (kinds : List FaultKind) (r : Except Fault α) : Prop := ∀ e, r = .error e → e.kind ∈ kinds

namespace FaultsIn

theorem ok (a : α) : FaultsIn kinds (.ok a : Except Fault α) := nofun

theorem error {e : Fault} (h : kinds.contains e.kind = true) :
    FaultsIn kinds (.error e : Except Fault α) := by
  rintro _ ⟨⟩
  exact List.contains_iff_mem.mp h

protected theorem bind {r : Except Fault α} {k : α → Except Fault β} (h : FaultsIn kinds r)
    (hk : ∀ a, FaultsIn kinds (k a)) : FaultsIn kinds (r >>= k) := by
  cases r with
  | ok a => exact hk a
  | error e => exact .error (List.contains_iff_mem.mpr (h e rfl))

theorem mapM {f : α → Except Fault β} (l : List α) (h : ∀ a ∈ l, FaultsIn kinds (f a)) :
    FaultsIn kinds (l.mapM f) := by
  induction l with
  | nil => exact .ok []
  | cons a l ih =>
    rw [List.mapM_cons]
    refine (h a List.mem_cons_self).bind fun _ => ?_
    exact (ih fun b hb => h b (List.mem_cons_of_mem a hb)).bind fun _ => .ok _

theorem mono {kinds' : List FaultKind} (h : kinds ⊆ kinds') {r : Except Fault α} (hr : FaultsIn kinds r) :
    FaultsIn kinds' r := fun e he => h (hr e he)

end FaultsIn

/-- However a computation fails, it is with a fault of one of these kinds. -/
def FailsIn (kinds : List FaultKind) (c : Computation α) : Prop :=
  FailsOnly (fun e => e.kind ∈ kinds) c

namespace FailsIn

protected theorem pure (a : α) : FailsIn kinds (pure a) := FailsOnly.pure a

theorem throw {e : Fault} (h : kinds.contains e.kind = true) :
    FailsIn kinds (throw e : Computation α) := FailsOnly.throw (List.contains_iff_mem.mp h)

protected theorem bind {c : Computation α} {k : α → Computation β} (h : FailsIn kinds c)
    (hk : ∀ a, FailsIn kinds (k a)) : FailsIn kinds (c >>= k) :=
  FailsOnly.bind h hk

theorem mono {kinds' : List FaultKind} (h : kinds ⊆ kinds') {c : Computation α}
    (hc : FailsIn kinds c) : FailsIn kinds' c :=
  fun s e t hrun => h (hc s e t hrun)

/-- What looks at the store does not fail by that. -/
theorem get {k : Store → Computation α} (h : ∀ s, FailsIn kinds (k s)) :
    FailsIn kinds (do k (← MonadState.get)) := FailsOnly.bind .get h

theorem read {f : Store → Except Fault α} (h : ∀ s, FaultsIn kinds (f s)) :
    FailsIn kinds (Computation.read f) := by
  intro s e t hrun
  unfold Computation.read at hrun
  cases hf : f s with
  | ok a =>
    rw [hf] at hrun
    cases hrun
  | error e' =>
    rw [hf] at hrun
    cases hrun
    exact h s _ hf

theorem ofExcept {r : Except Fault α} (h : FaultsIn kinds r) :
    FailsIn kinds (Computation.ofExcept r) := read fun _ => h

/-- What only makes a value does not fail. -/
theorem modifyGet (f : Store → α × Store) :
    FailsIn kinds (modifyGet f : Computation α) := nofun

theorem textOf (v : Value) (text : String) : FailsIn kinds (Computation.textOf v text) := by
  unfold Computation.textOf
  split
  · exact .pure _
  · exact modifyGet _

theorem newList (items : List Value) : FailsIn kinds (Computation.newList items) := nofun

end FailsIn

/-! ## Values as text -/

/-- The faults of values that are shown. -/
def displayFaults : List FaultKind := [.value, .host, .script, .depth]

theorem integerText_faults (n : Int) : FaultsIn displayFaults (integerText n) := by
  unfold integerText
  split
  · exact .ok _
  · exact .error rfl

theorem Value.quotedAtom_faults (v : Value) : FaultsIn displayFaults v.quotedAtom := by
  unfold Value.quotedAtom
  split
  case h_3 n => exact integerText_faults n
  case h_6 refusal => cases refusal <;> exact .error rfl
  all_goals exact .ok _

namespace Store

variable (s : Store)

theorem quotedWithin_faults (depth : Nat) (outer : List Value) (v : Value) :
    FaultsIn displayFaults (s.quotedWithin depth outer v) := by
  induction depth generalizing outer v with
  | zero => exact .error rfl
  | succ depth ih =>
    unfold quotedWithin
    dsimp only
    split
    · split
      · exact .ok _
      · exact (FaultsIn.mapM _ fun _ _ => ih _ _).bind fun _ => .ok _
    · split
      · exact .ok _
      · exact (ih _ _).bind fun _ => .ok _
    · split
      · exact .ok _
      · exact (FaultsIn.mapM _ fun _ _ => ih _ _).bind fun _ => .ok _
    · split
      · exact .ok _
      · refine (FaultsIn.mapM _ fun _ _ => ?_).bind fun _ => .ok _
        exact (ih _ _).bind fun _ => (ih _ _).bind fun _ => .ok _
    · split
      · exact .ok _
      · exact (FaultsIn.mapM _ fun _ _ => (ih _ _).bind fun _ => .ok _).bind fun _ => .ok _
    · exact Value.quotedAtom_faults _

theorem quoted_faults (v : Value) : FaultsIn displayFaults (s.quoted v) := s.quotedWithin_faults _ _ v

theorem bare_faults (v : Value) : FaultsIn displayFaults (s.bare v) := by
  unfold bare
  split
  · exact .ok _
  · exact s.quoted_faults _

theorem displayWithin_faults (depth : Nat) (v : Value) :
    FaultsIn displayFaults (s.displayWithin depth v) := by
  induction depth generalizing v with
  | zero => exact .error rfl
  | succ depth ih =>
    unfold displayWithin
    dsimp only
    split
    · exact .ok _
    · exact .ok _
    · exact .ok _
    · exact (FaultsIn.mapM _ fun _ _ => ih _).bind fun _ => .ok _
    · exact (FaultsIn.mapM _ fun _ _ => ih _).bind fun _ => .ok _
    · refine (FaultsIn.mapM _ fun _ _ => ?_).bind fun _ => .ok _
      exact (ih _).bind fun _ => (ih _).bind fun _ => .ok _
    · exact s.quoted_faults _

theorem display_faults (v : Value) : FaultsIn displayFaults (s.display v) := s.displayWithin_faults _ v

end Store

/-! ## Comparisons -/

/-- The faults of comparisons. -/
def compareFaults : List FaultKind := [.type, .depth]

theorem allAlike_faults {alike : Value → Value → Except Fault Bool}
    (h : ∀ v w, FaultsIn kinds (alike v w)) :
    ∀ vs ws : List Value, FaultsIn kinds (allAlike alike vs ws)
  | v :: vs, w :: ws => (h v w).bind fun same => by
    cases same with
    | true => exact allAlike_faults h vs ws
    | false => exact .ok false
  | [], _ => .ok true
  | _ :: _, [] => .ok true

theorem allEntriesAlike_faults {alike : Value → Value → Except Fault Bool}
    (h : ∀ v w, FaultsIn kinds (alike v w)) (others entries : List (Value × Value)) :
    FaultsIn kinds (allEntriesAlike alike others entries) := by
  induction entries with
  | nil => exact .ok true
  | cons entry entries ih =>
    unfold allEntriesAlike
    split
    · exact .ok false
    · refine (h _ _).bind fun same => ?_
      cases same with
      | true => exact ih
      | false => exact .ok false

theorem orderItems_faults (op : Comparison) {alike order : Value → Value → Except Fault Bool}
    (halike : ∀ v w, FaultsIn kinds (alike v w)) (horder : ∀ v w, FaultsIn kinds (order v w)) :
    ∀ vs ws : List Value, FaultsIn kinds (orderItems op alike order vs ws)
  | [], [] => .ok _
  | [], _ :: _ => .ok _
  | _ :: _, [] => .ok _
  | v :: vs, w :: ws => (halike v w).bind fun same => by
    cases same with
    | true => exact orderItems_faults op halike horder vs ws
    | false => exact horder v w

theorem Value.orderAtom_faults (op : Comparison) (v w : Value) :
    FaultsIn compareFaults (v.orderAtom op w) := by
  unfold Value.orderAtom
  split
  · exact .ok _
  · split
    · exact .ok _
    · exact .error rfl

namespace Store

variable (s : Store)

theorem equalWithin_faults (depth : Nat) (v w : Value) :
    FaultsIn compareFaults (s.equalWithin depth v w) := by
  induction depth generalizing v w with
  | zero => exact .error rfl
  | succ depth ih =>
    have hpart (x y : Value) :
        FaultsIn compareFaults (if x.same y then .ok true else s.equalWithin depth x y) := by
      split
      · exact .ok true
      · exact ih x y
    unfold equalWithin
    dsimp only
    split
    · split
      · exact .ok false
      · exact allAlike_faults hpart _ _
    · refine (allAlike_faults hpart _ _).bind fun same => ?_
      cases same <;> exact .ok _
    · split
      · exact .ok false
      · exact allEntriesAlike_faults hpart _ _
    · exact .ok _

theorem orderWithin_faults (op : Comparison) (depth : Nat) (v w : Value) :
    FaultsIn compareFaults (s.orderWithin op depth v w) := by
  induction depth generalizing v w with
  | zero => exact .error rfl
  | succ depth ih =>
    have hpart (x y : Value) :
        FaultsIn compareFaults (if x.same y then .ok true else s.equalWithin depth x y) := by
      split
      · exact .ok true
      · exact s.equalWithin_faults depth x y
    unfold orderWithin
    dsimp only
    split
    · exact orderItems_faults op hpart ih _ _
    · exact orderItems_faults op hpart ih _ _
    · exact Value.orderAtom_faults op _ _

theorem compareBy_faults (op : Comparison) (v w : Value) :
    FaultsIn compareFaults (s.compareBy op v w) := by
  unfold compareBy
  split
  · exact s.equalWithin_faults _ v w
  · exact (s.equalWithin_faults _ v w).bind fun _ => .ok _
  · exact s.orderWithin_faults op _ v w

end Store

/-! ## Formats -/

/-- The faults of formats that are filled in. -/
def formatFaults : List FaultKind := [.type, .overflow, .memory, .key] ++ displayFaults

theorem displayFaults_subset : displayFaults ⊆ formatFaults := by decide

section Formats

variable (s : Store) (p : Placeholder) (v : Value)

theorem Arguments.next_faults (arguments : Arguments) : FaultsIn formatFaults arguments.next := by
  unfold Arguments.next
  split
  · exact .ok _
  · exact .ok _
  · exact .error rfl

theorem formatValue_faults (key : List Char) : FaultsIn formatFaults (formatValue v key) := by
  unfold formatValue
  split
  · dsimp only
    split
    · exact .ok _
    · exact .error rfl
  · exact .error rfl
  · exact .error rfl

theorem integerByLetter_faults (n : Int) (letter : Char) :
    FaultsIn formatFaults (integerByLetter n letter p) := by
  unfold integerByLetter
  dsimp only
  split
  · exact .error rfl
  · split
    · exact .ok _
    · exact .ok _
    · exact .ok _
    · exact ((integerText_faults _).mono displayFaults_subset).bind fun _ => .ok _

theorem formatInteger_faults (letter : Char) : FaultsIn formatFaults (formatInteger letter v) := by
  unfold formatInteger
  dsimp only
  split
  · exact .ok _
  · split
    · exact .error rfl
    · split
      · exact .ok _
      · split <;> exact .error rfl
  · split <;> exact .error rfl

theorem formatDouble_faults : FaultsIn formatFaults (formatDouble v) := by
  unfold formatDouble
  split
  · exact .ok _
  · dsimp only
    split
    · exact .error rfl
    · exact .ok _
  · exact .error rfl

theorem formatCharacter_faults : FaultsIn formatFaults (formatCharacter v) := by
  unfold formatCharacter
  split
  · split
    · exact .ok _
    · exact .error rfl
  · split
    · exact .error rfl
    · split
      · exact .error rfl
      · exact .ok _

theorem Store.convert_faults (letter : Char) (place : Nat) :
    FaultsIn formatFaults (s.convert p letter place v) := by
  have hinteger (letter : Char) (marked : Bool) : FaultsIn formatFaults (do
      let n ← formatInteger letter v
      return Converted.number marked (← integerByLetter n letter p)) :=
    (formatInteger_faults v letter).bind fun n => (integerByLetter_faults p n letter).bind fun _ => .ok _
  have hbare := (s.bare_faults v).mono displayFaults_subset
  have hquoted := (s.quoted_faults v).mono displayFaults_subset
  unfold Store.convert
  dsimp only
  split
  · exact hbare.bind fun _ => .ok _
  · exact hquoted.bind fun _ => .ok _
  · exact hquoted.bind fun _ => .ok _
  iterate 6 exact hinteger _ _
  iterate 6 exact (formatDouble_faults v).bind fun _ => .ok _
  · exact (formatCharacter_faults v).bind fun _ => .ok _
  · exact .error rfl

theorem Store.fill_faults (letter : Char) (place : Nat) :
    FaultsIn formatFaults (s.fill p letter place v) := by
  refine (s.convert_faults p v letter place).bind fun converted => ?_
  dsimp only
  split
  · exact .error rfl
  · cases converted <;> exact .ok _

theorem Arguments.star_faults (arguments : Arguments) : FaultsIn formatFaults arguments.star := by
  refine arguments.next_faults.bind fun next => ?_
  dsimp only
  split
  · exact .ok _
  · exact .error rfl

theorem takeWidth_faults (arguments : Arguments) (cs : List Char) :
    FaultsIn formatFaults (takeWidth p arguments cs) := by
  unfold takeWidth
  split
  · refine arguments.star_faults.bind fun star => ?_
    dsimp only
    split
    · exact .error rfl
    · exact .ok _
  · split
    · dsimp only
      split
      · exact .error rfl
      · exact .ok _
    · exact .ok _
  · exact .ok _

theorem takePrecision_faults (arguments : Arguments) (cs : List Char) :
    FaultsIn formatFaults (takePrecision p arguments cs) := by
  unfold takePrecision
  split
  · refine arguments.star_faults.bind fun star => ?_
    dsimp only
    split
    · exact .error rfl
    · exact .ok _
  · dsimp only
    split
    · exact .error rfl
    · exact .ok _
  · exact .ok _

theorem takeSource_faults (arguments : Arguments) (cs : List Char) :
    FaultsIn formatFaults (takeSource v arguments cs) := by
  unfold takeSource
  split
  · dsimp only
    split
    · exact .error rfl
    · split
      · exact .error rfl
      · exact (formatValue_faults v _).bind fun _ => .ok _
  · exact .ok _

theorem Store.fillNext_faults (total : Nat) (arguments : Arguments) (cs : List Char) :
    FaultsIn formatFaults (s.fillNext total v arguments cs) := by
  refine (takeSource_faults v arguments cs).bind fun source => ?_
  refine (takeWidth_faults _ _ _).bind fun width => ?_
  refine (takePrecision_faults _ _ _).bind fun precision => ?_
  dsimp only
  split
  · exact .error rfl
  · exact (Arguments.next_faults _).bind fun next => (s.fill_faults _ _ _ _).bind fun _ => .ok _

theorem Store.fillAll_faults (total fuel : Nat) (arguments : Arguments) (cs : List Char) :
    FaultsIn formatFaults (s.fillAll total v fuel arguments cs) := by
  induction fuel generalizing arguments cs with
  | zero => exact .ok _
  | succ fuel ih =>
    unfold Store.fillAll
    dsimp only
    split
    · exact .ok _
    · exact (ih _ _).bind fun _ => .ok _
    · exact (s.fillNext_faults v _ _ _).bind fun _ => (ih _ _).bind fun _ => .ok _

theorem formatted_faults (value : Value) (format : String) :
    FailsIn formatFaults (formatted value format v) := by
  have htext : FailsIn formatFaults (formatText format v) := by
    refine .read fun s => (s.fillAll_faults v _ _ _ _).bind fun filled => ?_
    dsimp only
    split
    · exact .error rfl
    · exact .ok _
  refine htext.bind fun text => ?_
  split
  · exact .modifyGet _
  · split
    · exact .modifyGet _
    · refine .bind (.read fun s => (s.bare_faults _).mono displayFaults_subset) fun bare => ?_
      split
      · exact .pure _
      · exact .modifyGet _

end Formats

/-! ## Arithmetic -/

/-- The faults of an arithmetic operator. -/
def Arithmetic.faults : Arithmetic → List FaultKind
  | .add => [.type, .overflow] ++ displayFaults
  | .subtract => [.type, .overflow]
  | .multiply => [.type, .overflow, .memory]
  | .divide => [.type, .overflow, .zeroDivision]
  | .remainder => [.zeroDivision] ++ formatFaults

theorem quotient_faults (m n : Int) : FaultsIn Arithmetic.divide.faults (quotient m n) := by
  unfold quotient
  split
  · exact .error rfl
  · dsimp only
    split
    · exact .error rfl
    · exact .ok _

theorem floatRemainder_faults (x y : Float) :
    FaultsIn Arithmetic.remainder.faults (floatRemainder x y) := by
  unfold floatRemainder
  split
  · exact .error rfl
  · split <;> exact .ok _

namespace Arithmetic

theorem onIntegers_faults (op : Arithmetic) (m n : Int) : FailsIn op.faults (op.onIntegers m n) := by
  cases op with
  | add | subtract | multiply => exact .modifyGet _
  | divide => exact (FailsIn.ofExcept (quotient_faults m n)).bind fun _ => .modifyGet _
  | remainder =>
    unfold onIntegers
    dsimp only
    split
    · exact .throw rfl
    · exact .modifyGet _

theorem onDoubles_faults (op : Arithmetic) (x y : Float) : FailsIn op.faults (op.onDoubles x y) := by
  cases op with
  | add | subtract | multiply => exact .modifyGet _
  | divide =>
    unfold onDoubles
    dsimp only
    split
    · exact .throw rfl
    · exact .modifyGet _
  | remainder => exact (FailsIn.ofExcept (floatRemainder_faults x y)).bind fun _ => .modifyGet _

theorem toDouble_faults (op : Arithmetic) (m : Numeric) :
    FaultsIn op.faults m.toDouble := by
  unfold Numeric.toDouble
  split
  · exact .ok _
  · dsimp only
    split
    · cases op <;> exact .error rfl
    · exact .ok _

theorem onNumbers_faults (op : Arithmetic) (m n : Numeric) : FailsIn op.faults (op.onNumbers m n) := by
  unfold onNumbers
  split
  · exact op.onIntegers_faults _ _
  · refine (FailsIn.ofExcept (op.toDouble_faults _)).bind fun x => ?_
    exact (FailsIn.ofExcept (op.toDouble_faults _)).bind fun y => op.onDoubles_faults x y

theorem onValues_faults (op : Arithmetic) (left right : Value) :
    FailsIn op.faults (op.onValues left right) := by
  unfold onValues
  split
  · exact op.onNumbers_faults _ _
  · cases op <;> exact .throw rfl

theorem joinTexts_faults (left right : Value) (s t : String) :
    FailsIn kinds (joinTexts left s right t) := by
  unfold joinTexts
  split
  · exact .textOf _ _
  · split
    · exact .textOf _ _
    · exact .modifyGet _

theorem followedBy_faults (value other : Value) (left : Sequence) (right : Option Sequence) :
    FailsIn add.faults (left.followedBy value other right) := by
  unfold Sequence.followedBy
  split
  · exact joinTexts_faults _ _ _ _
  · exact .newList _
  · exact .pure _
  · exact .pure _
  · exact .modifyGet _
  iterate 3 exact .throw rfl

theorem plus_faults (left right : Value) : FailsIn add.faults (left.plus right) := by
  unfold Value.plus
  split
  · exact add.onNumbers_faults _ _
  · refine .get fun s => ?_
    split
    · exact followedBy_faults _ _ _ _
    · exact .throw rfl

theorem timesValue_faults (v count : Value) (sequence : Sequence) :
    FailsIn multiply.faults (sequence.timesValue v count) := by
  have htimes (n : Int) : FailsIn multiply.faults (sequence.times n) := by
    unfold Sequence.times
    split
    · dsimp only
      split
      · exact .throw rfl
      · split
        · exact .throw rfl
        · exact .modifyGet _
    · split
      · exact .throw rfl
      · exact .newList _
    · split
      · exact .throw rfl
      · exact .modifyGet _
  unfold Sequence.timesValue
  split
  · exact .throw rfl
  · split
    · exact .throw rfl
    · split
      · exact .pure _
      · exact htimes _

theorem times_faults (left right : Value) : FailsIn multiply.faults (left.times right) := by
  unfold Value.times
  split
  · exact multiply.onNumbers_faults _ _
  · refine .get fun s => ?_
    split
    · exact timesValue_faults _ _ _
    · exact timesValue_faults _ _ _
    · exact .throw rfl

/-- An arithmetic operator fails with none but its faults, whatever the values. -/
theorem apply_faults (op : Arithmetic) (left right : Value) :
    FailsIn op.faults (op.apply left right) := by
  have hdisplay (v : Value) : FailsIn add.faults (Computation.display v) :=
    .read fun s => (s.display_faults v).mono (List.subset_append_right _ _)
  unfold apply
  split
  · split
    · exact (hdisplay left).bind fun s => (hdisplay right).bind fun t => joinTexts_faults _ _ _ _
    · exact plus_faults left right
  · exact times_faults left right
  · split
    · exact (formatted_faults _ _ _).mono (List.subset_append_right _ _)
    · split
      · exact .pure _
      · exact remainder.onValues_faults _ _
    · exact remainder.onValues_faults _ _
  · exact op.onValues_faults left right

end Arithmetic

theorem Value.negate_faults (v : Value) : FailsIn [.type] v.negate := by
  unfold Value.negate
  split
  · exact .modifyGet _
  · exact .modifyGet _
  · exact .throw rfl

theorem item_faults (v key : Value) : FailsIn [.type] (Computation.item v key) := by
  have hmember (name : String) : FailsIn [.type] (Computation.member v name) := by
    unfold Computation.member
    split
    · exact .modifyGet _
    · exact .pure _
  unfold Computation.item
  split
  · exact .pure _
  · refine FailsIn.bind (.ofExcept ?_) fun _ => .pure _
    unfold lookUp
    split
    · exact .error rfl
    · exact .ok _
  · exact .get fun s => .pure _
  · exact .pure _
  · split
    · exact .modifyGet _
    · exact .pure _
  · exact hmember _
  · exact .throw rfl

/-! ## Operators in templates -/

/-- The kinds of faults that are reported of arithmetic. -/
def arithmeticReported : List FaultKind := [.type, .value, .zeroDivision]

/-- The kinds of faults of an arithmetic operator that pass as they are. -/
def Arithmetic.passing (op : Arithmetic) : List FaultKind :=
  op.faults.filter fun kind => !arithmeticReported.contains kind

namespace Eval

/-- What an operator at a place may come to: a value, a script error at that place in the file that is
executed, with what it says of a fault, or a fault of one of some kinds that passes as it is. No more
than the store has changed. -/
inductive Operated (span : Span) (wording : Fault → Cause) (passing : List FaultKind) (s : State) :
    EStateM.Result Failure State Value → Prop
  | value (v : Value) (store : Store) : Operated span wording passing s (.ok v { s with store })
  | located (e : Fault) (store : Store) : (wording e).kind = .runtime → Operated span wording passing s
      (.error (.script ⟨wording e, s.context.locate (some span)⟩) { s with store })
  | passed {e : Fault} (store : Store) : e.kind ∈ passing →
      Operated span wording passing s (.error (.ofFault e) { s with store })

theorem Operated.not_fault {span : Span} {wording : Fault → Cause} {s : State}
    {r : EStateM.Result Failure State Value} (h : Operated span wording [] s r) (e : Fault) (t : State) :
    r ≠ .error (.fault e) t := by
  rintro rfl
  generalize hr : EStateM.Result.error (Failure.fault e) t = r at h
  cases h with
  | value v store => cases hr
  | located e store _ => cases hr
  | passed store he => cases he

/-- What an operator comes to if its faults of some kinds are reported and those of others pass. -/
theorem operated_compute {span : Span} {wording : Fault → Cause} {kinds passing : List FaultKind}
    {onFault : Fault → Eval Value} (hruntime : ∀ e, (wording e).kind = .runtime)
    (honFault : ∀ e, e.kind ∈ kinds → onFault e = report (wording e) (some span) ∨
      e.kind ∈ passing ∧ onFault e = failWith e)
    {c : Computation Value} (hc : FailsIn kinds c) (s : State) :
    Operated span wording passing s (compute onFault c s) := by
  rw [compute_run]
  cases hrun : c s.store with
  | ok v store => exact .value v store
  | error e store =>
    dsimp only
    rcases honFault e (hc _ _ _ hrun) with h | ⟨hpass, h⟩
    · rw [h, report_run]
      exact .located e store (hruntime e)
    · rw [h]
      exact .passed store hpass

variable (span : Span) (s : State)

theorem negate_operated (v : Value) :
    Operated span (fun _ => .cannotNegate v.typeName) [] s (negate span v s) := by
  refine operated_compute (fun _ => rfl) (fun e he => .inl ?_) v.negate_faults s
  rw [List.mem_singleton.mp he]

theorem item_operated (object key : Value) :
    Operated span (fun e => .cannotIndex e.message) [] s (item span object key s) := by
  refine operated_compute (fun _ => rfl) (fun e he => .inl ?_) (item_faults object key) s
  rw [List.mem_singleton.mp he]

theorem comparison_operated (op : Comparison) (left right : Value) :
    Operated span (fun _ => .cannotCompare left.typeName right.typeName op.symbol) [.depth] s
      (comparison span op left right s) := by
  have hfaults : FailsIn compareFaults (do return Value.bool (← Computation.compareBy op left right)) :=
    (FailsIn.read fun s => s.compareBy_faults op left right).bind fun _ => .pure _
  refine operated_compute (fun _ => rfl) (fun e he => ?_) hfaults s
  generalize e.kind = kind at he
  simp only [compareFaults, List.mem_cons, List.not_mem_nil, or_false] at he
  rcases he with rfl | rfl
  · exact .inl rfl
  · exact .inr ⟨List.mem_cons_self, rfl⟩

theorem arithmetic_operated (op : Arithmetic) (left right : Value) :
    Operated span (fun e => .cannotApply op.symbol left.typeName right.typeName e.message) op.passing s
      (arithmetic span op left right s) := by
  refine operated_compute (fun _ => rfl) (fun e he => ?_) (op.apply_faults left right) s
  generalize e.kind = kind at he
  cases kind with
  | type | value | zeroDivision => exact .inl rfl
  | _ => exact .inr ⟨List.mem_filter.mpr ⟨he, rfl⟩, rfl⟩

/-- An operator whose operands have been evaluated comes to a value, or to a script error at the place
of the operator in the file that is executed, with what it says of the fault. A sign and brackets come
to nothing else. A comparison may also go too deep; and of arithmetic some faults pass as they are:
numbers that are too large, and what goes wrong in showing an operand or in filling in a format. -/
theorem operators_located (host : Host) (fuel : Nat) (span : Span) :
    (∀ operand v s t, evaluate host fuel operand s = .ok v t →
      Operated span (fun _ => .cannotNegate v.typeName) [] t
        (evaluate host (fuel + 1) (.unary span .negate operand) s)) ∧
    (∀ object key v k s t u, evaluate host fuel object s = .ok v t → evaluate host fuel key t = .ok k u →
      Operated span (fun e => .cannotIndex e.message) [] u
        (evaluate host (fuel + 1) (.item span object key) s)) ∧
    (∀ op left right v w s t u, evaluate host fuel left s = .ok v t →
      evaluate host fuel right t = .ok w u →
      Operated span (fun _ => .cannotCompare v.typeName w.typeName op.symbol) [.depth] u
        (evaluate host (fuel + 1) (.compare span op left right) s)) ∧
    ∀ op left right v w s t u, evaluate host fuel left s = .ok v t →
      evaluate host fuel right t = .ok w u →
      Operated span (fun e => .cannotApply op.symbol v.typeName w.typeName e.message) op.passing u
        (evaluate host (fuel + 1) (.arithmetic span op left right) s) := by
  refine ⟨fun operand v s t h => ?_, fun object key v k s t u h hk => ?_,
    fun op left right v w s t u h hw => ?_, fun op left right v w s t u h hw => ?_⟩
  · rw [evaluate, step, bind_of_ok h]
    exact negate_operated span t v
  · rw [evaluate, step, bind_of_ok h, bind_of_ok hk]
    exact item_operated span u v k
  · rw [evaluate, step, bind_of_ok h, bind_of_ok hw]
    exact comparison_operated span u op v w
  · rw [evaluate, step, bind_of_ok h, bind_of_ok hw]
    exact arithmetic_operated span u op v w

/-- A division by zero in an included file. -/
theorem operators_located_division :
    let span : Span := ⟨none, ⟨1, 3⟩, ⟨1, 8⟩⟩
    let left := Node.const span (.int 0 7)
    let right := Node.const span (.int 0 0)
    let s : State := { context := { sourceFiles := ["part", "page"] } }
    let r := evaluate basicHost 2 (.arithmetic span .divide left right) s
    (evaluate basicHost 1 left s = .ok (.int 0 7) s ∧ evaluate basicHost 1 right s = .ok (.int 0 0) s) ∧
      Operated span (fun e => .cannotApply "/" "int" "int" e.message) Arithmetic.divide.passing s r ∧
      r = .error (.script ⟨.cannotApply "/" "int" "int" "division by zero",
        some (span.inFile (some "part"))⟩) s := by
  intro span left right s r
  exact ⟨⟨rfl, rfl⟩, (operators_located basicHost 1 span).2.2.2 .divide left right _ _ s s s rfl rfl, rfl⟩

/-- Arithmetic may fail with more than a script error at its place: a format asks for a key that a
dictionary does not have. -/
theorem not_operators_located :
    ¬ ∀ host fuel span op left right v w s t u, evaluate host fuel left s = .ok v t →
      evaluate host fuel right t = .ok w u → ∃ wording,
        Operated span wording [] u (evaluate host (fuel + 1) (.arithmetic span op left right) s) := by
  intro h
  let span : Span := ⟨none, ⟨1, 3⟩, ⟨1, 13⟩⟩
  obtain ⟨wording, hoperated⟩ := h basicHost 1 span .remainder (.const span (.text 0 "%(a)s"))
    (.const span (.dict 0 [])) _ _ {} _ _ rfl rfl
  have hrun : evaluate basicHost 2 (.arithmetic span .remainder (.const span (.text 0 "%(a)s"))
      (.const span (.dict 0 []))) {} = .error (.fault (.missingKey "a")) {} := rfl
  exact hoperated.not_fault _ _ hrun

end Eval

end Stencil
