import DataflowSpecializer.Generate.Classes
import DataflowSpecializer.Proofs.Fitness.Drafting
import DataflowSpecializer.Reduce.Boxing

/-! # Operations that fit -/
namespace DataflowSpecializer
open Platform List

def Builtin.isCallable (f : Builtin) : Bool :=
  match f.target with
  | .static _ method => !isReserved method
  | .virtual method => !isReserved method && !f.params.isEmpty

lemma Builtin.isCallable_table : table.all isCallable := by decide

namespace Draft
variable {P : Demand → Prop} [Liberal P] {V W : List Label} {n : Nat} {a b l : Nat}

lemma booleanValue_tidy (hl : l < n) : TidyValue P V W n (booleanValue l) :=
  (cast_tidy hl).bind fun _ _ _ h => callValue_tidy h (by simp) (by decide)

lemma intValue_tidy (hl : l < n) : TidyValue P V W n (intValue l) :=
  (cast_tidy hl).bind fun _ _ _ h => callValue_tidy h (by simp) (by decide)

lemma negation_tidy (hl : l < n) : TidyValue P V W n (negation l) :=
  (cast_tidy hl).bind fun _ _ _ h => callValue_tidy h (by simp) (by decide)

lemma binary_tidy (ha : a < n) (hb : b < n) (hop : isReserved op = false) :
    TidyValue P V W n (binary op a b) := callValue_tidy ha (by simpa) hop

lemma less_tidy (ha : a < n) (hb : b < n) : TidyValue P V W n (less a b) :=
  (cast_tidy ha).bind fun _ _ _ h1 => (cast_tidy (by omega)).bind fun _ _ _ h2 =>
    callValue_tidy (by omega) (by simpa) (by decide)

lemma relation_tidy (op : RelationOp) (ha : a < n) (hb : b < n) :
    TidyValue P V W n (relation op a b) := by
  have hequal : TidyValue P V W n (callValue a isEqualTo [.loc b]) :=
    callValue_tidy ha (by simpa) (by decide)
  cases op with
  | eq => exact hequal
  | ne => exact hequal.bind fun _ _ _ h => negation_tidy h
  | lt => exact less_tidy ha hb
  | gt => exact less_tidy hb ha
  | le => exact (less_tidy hb ha).bind fun _ _ _ h => negation_tidy h
  | ge => exact (less_tidy ha hb).bind fun _ _ _ h => negation_tidy h

lemma bitOpName_isReserved (op : BitOp) : isReserved
    (bitOpName op) = false := by cases op <;> decide

lemma shiftOpName_isReserved (op : ShiftOp) : isReserved (shiftOpName op) = false := by
  cases op <;> decide

lemma shift_tidy (op : ShiftOp) (ha : a < n) (hb : b < n) : TidyValue P V W n (shift op a b) :=
  (intValue_tidy hb).bind fun _ _ _ h1 => (cast_tidy (by omega)).bind fun _ _ _ h2 =>
    callValue_tidy h2 (by simp; omega) (shiftOpName_isReserved op)

lemma power_tidy (ha : a < n) (hb : b < n) : TidyValue P V W n (power a b) :=
  (intValue_tidy hb).bind fun _ _ _ h1 => callValue_tidy (by omega) (by simpa) (by decide)

lemma unary_tidy (op : UnaryOp) (hl : l < n) : TidyValue P V W n (unary op l) := by
  cases op with
  | negate => exact callValue_tidy hl (by simp) (by decide)
  | not => exact negation_tidy hl
  | bitwiseNot => exact (cast_tidy hl).bind fun _ _ _ h => callValue_tidy h (by simp) (by decide)

lemma convert_tidy (t : ValueType) (hl : l < n) : TidyValue P V W n (convert l t) :=
  callStatic_tidy (by simpa) (by simp only [tokenConvert]; decide)

lemma accessor?_isReserved {k : Carrier} (h : k.accessor? = some name) :
    isReserved name = false := by
  cases k <;> cases h <;> decide

lemma wrapper?_isNumbered {k : Carrier} {className : String} (h : k.wrapper? = some className) :
    isNumbered className = false := by
  cases k <;> cases h <;> decide

lemma unbox_tidy (k : Carrier) (hl : l < n) : TidyValue P V W n (unbox k l) := by
  unfold unbox
  split
  · rename_i name hname
    exact (cast_tidy hl).bind fun _ _ _ h => callValue_tidy h (by simp) (accessor?_isReserved hname)
  · split
    · exact cast_tidy hl
    · exact .pure fun _ hn => hl.trans_le hn

lemma unboxAll_tidy (ks : List Carrier) (hls : ∀ l ∈ ls, (l : Nat) < n) :
    Tidies P V W n (unboxAll ks ls) (fun _ => W) fun n vs =>
      (∀ l ∈ vs, (l : Nat) < n) ∧ (ks ≠ [] → ls ≠ [] → vs ≠ []) := by
  induction ks generalizing ls n with
  | nil =>
    rw [unboxAll.eq_def]
    exact .pure fun _ _ => ⟨fun _ h => absurd h not_mem_nil, fun h => absurd rfl h⟩
  | cons k ks ih =>
    cases ls with
    | nil =>
      rw [unboxAll.eq_def]
      exact .pure fun _ _ => ⟨fun _ h => absurd h not_mem_nil, fun _ h => absurd rfl h⟩
    | cons l ls =>
      rw [unboxAll]
      refine (unbox_tidy k (hls l (.head _))).bind fun v n1 h1 hv => ?_
      refine (ih fun l hl => ?_).bind fun vs n2 h2 hvs => .pure fun n3 h3 => ⟨fun x hx => ?_, ?_⟩
      · exact (hls l (.tail _ hl)).trans_le h1
      · rcases mem_cons.1 hx with rfl | hx
        · exact hv.trans_le (h2.trans h3)
        · exact (hvs.1 x hx).trans_le h3
      · exact fun _ _ => cons_ne_nil _ _

lemma wrap_tidy (f : Builtin) (hraw : (raw : Nat) < n) : TidyValue P V W n
    (match f.result.wrapper? with
    | some className => newObject "result" className [.loc raw]
    | none => pure raw) := by
  split
  · rename_i className hclass
    exact newObject_tidy (by simpa) (Liberal.new (wrapper?_isNumbered hclass))
  · exact .pure fun _ hn => hraw.trans_le hn

lemma callBuiltin_tidy {f : Builtin} (hf : f.isCallable) {args : List LocalId}
    (hlength : args.length = f.params.length) (hargs : ∀ l ∈ args, (l : Nat) < n) :
    TidyValue P V W n (callBuiltin f args) := by
  refine (unboxAll_tidy f.params hargs).bind fun vs n1 h1 hvs => ?_
  have hoperands : OperandsTaken n1 (vs.map Operand.loc) := operandsTaken_map (f := id) hvs.1
  unfold Builtin.isCallable at hf
  dsimp only
  cases htarget : f.target with
  | static className method =>
    rw [htarget] at hf
    exact (callStatic_tidy hoperands (by simpa using hf)).bind fun _ _ _ => wrap_tidy f
  | virtual method =>
    rw [htarget] at hf
    obtain ⟨hname, hparams⟩ := Bool.and_eq_true_iff.1 hf
    have hparams : f.params ≠ [] := by simpa using hparams
    have hne : vs ≠ [] := hvs.2 hparams fun h => hparams (length_eq_zero_iff.1 (by simp [← hlength, h]))
    obtain ⟨v, vs, rfl⟩ := exists_cons_of_ne_nil hne
    have hdrop : OperandsTaken n1 (((v :: vs).map Operand.loc).drop 1) :=
      operandsTaken_map (f := id) fun l hl => hvs.1 l (.tail _ hl)
    exact (callValue_tidy (hvs.1 v (.head _)) hdrop (by simpa using hname)).bind
      fun _ _ _ => wrap_tidy f
end Draft

/-! ## Library actors -/
namespace Template
open Draft

variable {P : Demand → Prop} [Liberal P] {V W : List Label} {n : Nat} {a this : Nat} {name : String}

section
variable (h : this < n)

include h

lemma port_tidy : TidyValue P V W n (port this name) := lookup_tidy h

lemma parameterValue_tidy : TidyValue P V W n (parameterValue this name) :=
  (lookup_tidy h).bind fun _ _ _ hp => callValue_tidy hp (by simp) (by decide)

lemma sendOutput_tidy (ha : a < n) : TidyCode P V W n (sendOutput this a) :=
  (port_tidy h).bind fun _ _ _ hp => send_tidy hp (by omega)

lemma takeInput_tidy (hskip : skip ∈ V ∨ skip ∈ W) : TidyValue P V W n (takeInput this skip) :=
  (port_tidy h).bind fun _ _ _ hp => readInput_tidy hp hskip

lemma constFire_tidy : TidyCode P V W n (constFire this) :=
  (parameterValue_tidy h).bind fun _ _ _ hv =>
    (sendOutput_tidy (by omega) hv).bind fun _ _ _ _ => ret_tidy (by simp)
end

section State
variable {state sum pending : FieldId}

lemma rampInitialize_tidy (hP : P (.store state)) (h : this < n) :
    TidyCode P V W n (rampInitialize state this) :=
  (parameterValue_tidy h).bind fun _ _ _ hv =>
    (storeField_tidy (by omega) (by simpa) hP).bind fun _ _ _ _ => ret_tidy (by simp)

lemma rampFire_tidy (hP : P (.read state)) (h : this < n) :
    TidyCode P V W n (rampFire state this) :=
  (readField_tidy h hP).bind fun _ _ _ hv =>
    (sendOutput_tidy (by omega) hv).bind fun _ _ _ _ => ret_tidy (by simp)

lemma rampPostfire_tidy (hread : P (.read state)) (hstore : P (.store state)) (h : this < n) :
    TidyCode P V W n (rampPostfire state this) :=
  (parameterValue_tidy h).bind fun _ _ _ h1 =>
    (readField_tidy (by omega) hread).bind fun _ _ _ h2 =>
      (binary_tidy h2 (by omega) (by decide)).bind fun _ _ _ h3 =>
        (storeField_tidy (by omega) (by simpa) hstore).bind fun _ _ _ _ => ret_tidy (by simp)

lemma rampAttributeChanged_tidy (hP : P (.store state)) (ha : a < n) (h : this < n) :
    TidyCode P V W n (rampAttributeChanged state a this) :=
  label_tidy.bind fun done _ _ _ => (lookup_tidy (by omega)).bind fun _ _ _ h1 =>
    (branch_tidy (by simp; omega) (.inr (.head _))).bind fun _ _ _ _ =>
      (callValue_tidy (by omega) (by simp) (by decide)).bind fun _ _ _ h2 =>
        (storeField_tidy (by omega) (by simpa) hP).bind fun _ _ _ _ =>
          place_tidy.bind fun _ _ _ _ => ret_tidy (by simp)

lemma scaleFire_tidy (h : this < n) : TidyCode P V W n (scaleFire this) :=
  label_tidy.bind fun done _ _ _ =>
    (takeInput_tidy (by omega) (.inr (.head _))).bind fun _ _ _ h1 =>
      (parameterValue_tidy (by omega)).bind fun _ _ _ h2 =>
        (binary_tidy h2 (by omega) (by decide)).bind fun _ _ _ h3 =>
          (sendOutput_tidy (by omega) h3).bind fun _ _ _ _ =>
            place_tidy.bind fun _ _ _ _ => ret_tidy (by simp)

lemma accumulate_tidy {portName : String} (h : this < n) (ha : a < n)
    (hop : isReserved op = false) :
    TidyCode P V W n (accumulate this a portName op) := by
  refine label_tidy.bind fun skip n1 h1 _ => (port_tidy (by omega)).bind fun p n2 h2 hp =>
    (readInput_tidy hp (.inr (.head _))).bind fun v n3 h3 hv =>
      label_tidy.bind fun first n4 h4 _ => label_tidy.bind fun joined n5 h5 _ =>
        (branch_tidy (by simp [null]; omega) (.inr (by simp))).bind fun _ n6 h6 _ =>
          (binary_tidy (by omega) (by omega) hop).bind fun acc n7 h7 hacc =>
            (copy_tidy (by omega) hacc).bind fun _ n8 h8 _ =>
              (goto_tidy (.inr (by simp))).bind fun _ n9 h9 _ =>
                -- The label of the first value is placed before that of the join.
                .perm (.swap first joined _) (place_tidy.bind fun _ n10 h10 _ => ?_)
  have hend {n : Nat} : Tidies P V (joined :: skip :: W) n (place joined >>= fun _ => place skip)
      (fun _ => W) fun _ _ => True := place_tidy.bind fun _ _ _ _ => place_tidy
  dsimp only
  split
  · exact (callValue_tidy (by omega) (by simp) (by decide)).bind fun r n11 h11 hr =>
      (copy_tidy (by omega) hr).bind fun _ _ _ _ => hend
  · exact (copy_tidy (by omega) (by omega)).bind fun _ _ _ _ => hend

lemma addSubtractFire_tidy (h : this < n) : TidyCode P V W n (addSubtractFire this) :=
  temp_tidy.bind fun sum n1 h1 hsum =>
    (assign_tidy (v := .use null) hsum nofun nofun).bind fun _ n2 h2 _ =>
      (accumulate_tidy (by omega) (by omega) (by decide)).bind fun _ n3 h3 _ =>
        (accumulate_tidy (by omega) (by omega) (by decide)).bind fun _ n4 h4 _ =>
          label_tidy.bind fun done n5 h5 _ =>
            (branch_tidy (by simp [null]; omega) (.inr (.head _))).bind fun _ n6 h6 _ =>
              (sendOutput_tidy (by omega) (by omega)).bind fun _ n7 h7 _ =>
                place_tidy.bind fun _ _ _ _ => ret_tidy (by simp)

lemma absoluteValueFire_tidy (h : this < n) : TidyCode P V W n (absoluteValueFire this) :=
  label_tidy.bind fun done n1 h1 _ =>
    (takeInput_tidy (by omega) (.inr (.head _))).bind fun v n2 h2 hv =>
      temp_tidy.bind fun result n3 h3 hresult =>
        label_tidy.bind fun scalar n4 h4 _ => label_tidy.bind fun out n5 h5 _ =>
          (instanceOf_tidy (by omega)).bind fun test n6 h6 htest =>
            (branchFalse_tidy htest (.inr (by simp))).bind fun _ n7 h7 _ =>
              (cast_tidy (by omega)).bind fun c n8 h8 hc =>
                (callValue_tidy hc (by simp) (by decide)).bind fun r n9 h9 hr =>
                  (copy_tidy (by omega) hr).bind fun _ n10 h10 _ =>
                    (goto_tidy (.inr (.head _))).bind fun _ n11 h11 _ =>
                      .perm (.swap scalar out _) (place_tidy.bind fun _ n12 h12 _ =>
                        (cast_tidy (by omega)).bind fun s n13 h13 hs =>
                          (callValue_tidy hs (by simp) (by decide)).bind fun r n14 h14 hr =>
                            (copy_tidy (by omega) hr).bind fun _ n15 h15 _ =>
                              place_tidy.bind fun _ n16 h16 _ =>
                                (sendOutput_tidy (by omega) (by omega)).bind fun _ n17 h17 _ =>
                                  place_tidy.bind fun _ _ _ _ => ret_tidy (by simp))

lemma accumulatorInitialize_tidy (hsum : P (.store sum)) (hpending : P (.store pending))
    (h : this < n) : TidyCode P V W n (accumulatorInitialize sum pending this) :=
  (parameterValue_tidy h).bind fun _ _ _ hv =>
    (storeField_tidy (by omega) (by simpa) hsum).bind fun _ _ _ _ =>
      (storeField_tidy (by omega) (by simp [null]) hpending).bind fun _ _ _ _ => ret_tidy (by simp)

lemma accumulatorFire_tidy (hsum : P (.read sum)) (hpending : P (.store pending))
    (h : this < n) : TidyCode P V W n (accumulatorFire sum pending this) :=
  label_tidy.bind fun done n1 h1 _ => label_tidy.bind fun ok n2 h2 _ =>
    (takeInput_tidy (by omega) (.inr (by simp))).bind fun v n3 h3 hv =>
      (readField_tidy (by omega) hsum).bind fun s n4 h4 hs =>
        (callStatic_tidy (by simp; omega) (by decide)).bind fun order n5 h5 horder =>
          (branch_tidy (by simpa) (.inr (.head _))).bind fun _ n6 h6 _ =>
            throwMessage_tidy.bind fun _ n7 h7 _ => place_tidy.bind fun _ n8 h8 _ =>
              (binary_tidy (by omega) (by omega) (by decide)).bind fun next n9 h9 hnext =>
                (storeField_tidy (by omega) (by simpa) hpending).bind fun _ n10 h10 _ =>
                  (sendOutput_tidy (by omega) (by omega)).bind fun _ n11 h11 _ =>
                    place_tidy.bind fun _ _ _ _ => ret_tidy (by simp)

omit [Liberal P] in
lemma accumulatorPostfire_tidy (hread : P (.read pending)) (hsum : P (.store sum))
    (hpending : P (.store pending)) (h : this < n) :
    TidyCode P V W n (accumulatorPostfire sum pending this) :=
  label_tidy.bind fun done n1 h1 _ => (readField_tidy (by omega) hread).bind fun p n2 h2 hp =>
    (branch_tidy (by simp [null]; omega) (.inr (.head _))).bind fun _ n3 h3 _ =>
      (storeField_tidy (by omega) (by simp; omega) hsum).bind fun _ n4 h4 _ =>
        (storeField_tidy (by omega) (by simp [null]) hpending).bind fun _ n5 h5 _ =>
          place_tidy.bind fun _ _ _ _ => ret_tidy (by simp)

lemma recorderFire_tidy (hP : P (.store state)) (h : this < n) :
    TidyCode P V W n (recorderFire state this) :=
  label_tidy.bind fun done n1 h1 _ =>
    (takeInput_tidy (by omega) (.inr (.head _))).bind fun v n2 h2 hv =>
      (storeField_tidy (by omega) (by simpa) hP).bind fun _ n3 h3 _ =>
        place_tidy.bind fun _ _ _ _ => ret_tidy (by simp)

omit [Liberal P] in
lemma recorderLatest_tidy (hP : P (.read state)) (h : this < n) :
    TidyCode P V W n (recorderLatest state this) :=
  (readField_tidy h hP).bind fun _ _ _ hl => ret_tidy (by simpa)
end State
end Template

lemma valueClass_isNumbered (t : ValueType) : isNumbered t.valueClass = false := by
  cases t with
  | matrix e => cases e <;> simp only [ValueType.valueClass] <;> decide
  | _ =>
    simp only [ValueType.valueClass]
    decide

lemma Boxing.unboxed_tidy [Liberal P]
    (op : BinaryOp) (t : ValueType) (native : CodeType) {accessor : String}
    (ha : a < n) (hb : b < n) (hl : l < n) (haccessor : isReserved accessor = false) :
    Draft.TidyCode P V W n (unboxed op a b t native accessor l) :=
  (Draft.cast_tidy ha).bind fun _ _ _ h1 =>
    (Draft.callValue_tidy h1 (by simp) haccessor).bind fun _ _ _ h2 =>
      (Draft.cast_tidy (by omega)).bind fun _ _ _ h3 =>
        (Draft.callValue_tidy h3 (by simp) haccessor).bind fun _ _ _ h4 =>
          (Draft.operation_tidy (by omega) h4).bind
            fun _ _ _ h5 =>
              (Draft.newObject_tidy (by simpa) (Liberal.new (valueClass_isNumbered t))).bind
                fun _ _ _ h6 => Draft.copy_tidy (by omega) h6
end DataflowSpecializer
