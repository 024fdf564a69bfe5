import BlockScript.Report.Format
import BlockScript.Proofs.RoundTrip
import Mathlib.Data.List.Nodup

/-!
# What a report tells as a document

The document of a report is made of texts and integers (`Report.madeOf_toJson`), so that it is read
back from the text it is written as, whatever characters the messages in it have. What can be looked
up in it (`Json.field?`, `Json.list?` and the readers of scalars) is what the report holds
(`Report.variables_toJson` and its like), and since values are told apart by their integers, the
text of a report determines the state that it shows (`Report.state_eq_of_toJson`). A failure tells
the statement, the code, the message and where in an expression the fault arose, null if it arose in
none (`Failure.fields_toJson`).
-/

set_option autoImplicit false

namespace BlockScript

/-! ## Looking into documents -/

namespace Json

/-- The value of the only member of an object that has this name. -/
def field? (name : String) : Json → Option Json
  | .object members => (member? name members).join
  | _ => none

/-- The text of a string. -/
def text? : Json → Option String
  | .string text => text
  | _ => none

/-- The value of a number that is written without point and exponent. -/
def integer? : Json → Option Int
  | .number ⟨false, whole, [], none⟩ => some whole
  | .number ⟨true, whole, [], none⟩ => some (-whole)
  | _ => none

/-- What a document tells that may be null. -/
def orNull? {α : Type} (read : Json → Option α) : Json → Option (Option α)
  | .null => some none
  | j => (read j).map some

/-- What the items of an array tell, in order. -/
def list? {α : Type} (read : Json → Option α) : Json → Option (List α)
  | .array items => items.mapM read
  | _ => none

/-- A name, and what an object with this name tells under another field. -/
def named? {α : Type} (field : String) (read : Json → Option α) (j : Json) :
    Option (String × α) := do
  let name ← (← j.field? "name").text?
  let content ← read (← j.field? field)
  some (name, content)

section
variable {α β : Type} {members : List (String × Json)} {name : String} {value : Json}

theorem field?_record (hn : (members.map (·.1)).Nodup) (hm : (name, value) ∈ members) :
    field? name (record members) = some value := by
  obtain ⟨before, after, rfl⟩ := List.append_of_mem hm
  rw [List.map_append, List.map_cons, List.nodup_middle, List.nodup_cons, ← List.map_append] at hn
  -- All other members have other names.
  have other : ∀ member ∈ before ++ after, member.1 ≠ name := by
    intro member h he
    have hm : member.1 ∈ (before ++ after).map (·.1) := List.mem_map_of_mem h
    rw [he] at hm
    exact hn.1 hm
  obtain ⟨hb, ha⟩ := List.forall_mem_append.1 other
  have hk : record (before ++ (name, value) :: after) =
      .object (keyed before ++ (some name, value) :: keyed after) := by
    simp [record, keyed]
  rw [hk, field?, member?_append _ (keyed_ne hb) (keyed_ne ha), Option.join_some]

@[simp] theorem text?_ofString (s : String) : text? (ofString s) = some s := rfl

@[simp] theorem integer?_ofInt (n : Int) : integer? (ofInt n) = some n := by
  by_cases hn : n < 0
  · have ho : ofInt n = .number ⟨true, n.natAbs, [], none⟩ := by simp [ofInt, Number.ofInt, hn]
    rw [ho, integer?]
    congr 1
    omega
  · have ho : ofInt n = .number ⟨false, n.natAbs, [], none⟩ := by simp [ofInt, Number.ofInt, hn]
    rw [ho, integer?]
    congr 1
    omega

theorem list?_map {read : Json → Option β} {write : α → Json} {told : α → β} {as : List α}
    (h : ∀ a ∈ as, read (write a) = some (told a)) :
    list? read (.array (as.map write)) = some (as.map told) :=
  mapM_map_eq_some_map h

theorem madeOf_array {write : α → Json} (h : ∀ a, (write a).MadeOf Number.IsInt) (as : List α) :
    (Json.array (as.map write)).MadeOf Number.IsInt := by
  refine .array fun item hm => ?_
  obtain ⟨a, -, rfl⟩ := List.mem_map.1 hm
  exact h a

@[simp] theorem madeOf_ofInt (n : Int) : (ofInt n).MadeOf Number.IsInt :=
  .number ⟨n, rfl⟩

end

end Json

/-! ## Parts of a report -/

open Json

theorem named?_variableToJson (entry : String × Value) :
    named? "value" integer? (variableToJson entry) = some (entry.1, entry.2.toInt) := by
  have hname : field? "name" (variableToJson entry) = some (.ofString entry.1) :=
    field?_record (by simp) (by simp)
  have hvalue : field? "value" (variableToJson entry) = some (.ofInt entry.2.toInt) :=
    field?_record (by simp) (by simp)
  simp [named?, hname, hvalue]

theorem named?_arrayToJson (entry : String × Array Value) :
    named? "values" (list? integer?) (arrayToJson entry) =
      some (entry.1, entry.2.toList.map Int64.toInt) := by
  have hname : field? "name" (arrayToJson entry) = some (.ofString entry.1) :=
    field?_record (by simp) (by simp)
  have hvalues : field? "values" (arrayToJson entry) =
      some (.array (entry.2.toList.map fun value => .ofInt value.toInt)) :=
    field?_record (by simp) (by simp)
  have hlist : list? integer? (.array (entry.2.toList.map fun value => .ofInt value.toInt)) =
      some (entry.2.toList.map Int64.toInt) :=
    list?_map fun value _ => integer?_ofInt value.toInt
  simp [named?, hname, hvalues, hlist]

theorem madeOf_variableToJson (entry : String × Value) :
    (variableToJson entry).MadeOf Number.IsInt :=
  madeOf_record (by simp)

theorem madeOf_arrayToJson (entry : String × Array Value) :
    (arrayToJson entry).MadeOf Number.IsInt := by
  have hvalues := madeOf_array (fun value : Value => madeOf_ofInt value.toInt) entry.2.toList
  exact madeOf_record (by simp [hvalues])

namespace Failure

variable (f : Failure)

theorem position_toJson :
    (f.toJson.field? "position").bind (orNull? integer?) =
      some (f.fault.origin.map fun o => (o.span.start : Int)) := by
  have hf : f.toJson.field? "position" =
      some ((f.fault.origin.map fun o => Json.ofInt o.span.start).getD .null) :=
    field?_record (by simp) (by simp)
  rw [hf]
  cases f.fault.origin with
  | none => rfl
  | some o =>
    show (integer? (.ofInt o.span.start)).map some = _
    rw [integer?_ofInt]
    rfl

/-- What the record of a failure tells. -/
theorem fields_toJson :
    (f.toJson.field? "statement").bind integer? = some (f.statement : Int) ∧
    (f.toJson.field? "code").bind text? = some f.fault.code ∧
    (f.toJson.field? "message").bind text? = some f.fault.message ∧
    (f.toJson.field? "position").bind (orNull? integer?) =
      some (f.fault.origin.map fun o => (o.span.start : Int)) := by
  have hstatement : f.toJson.field? "statement" = some (.ofInt f.statement) :=
    field?_record (by simp) (by simp)
  have hcode : f.toJson.field? "code" = some (.ofString f.fault.code) :=
    field?_record (by simp) (by simp)
  have hmessage : f.toJson.field? "message" = some (.ofString f.fault.message) :=
    field?_record (by simp) (by simp)
  exact ⟨by simp [hstatement], by simp [hcode], by simp [hmessage], f.position_toJson⟩

theorem madeOf_toJson : f.toJson.MadeOf Number.IsInt := by
  have hp : ((f.fault.origin.map fun o => Json.ofInt o.span.start).getD .null).MadeOf
      Number.IsInt := by
    cases f.fault.origin with
    | none => exact .null
    | some o => exact madeOf_ofInt _
  exact madeOf_record (by simp [hp])

end Failure

namespace Report

variable (r : Report)

theorem madeOf_toJson : r.toJson.MadeOf Number.IsInt := by
  have he : ((r.failure.map Failure.toJson).getD .null).MadeOf Number.IsInt := by
    cases r.failure with
    | none => exact .null
    | some f => exact f.madeOf_toJson
  have ha := madeOf_array madeOf_arrayToJson r.state.arrays.entries
  have ho := madeOf_array madeOf_ofString r.state.outputs.toList
  have hv := madeOf_array madeOf_variableToJson r.state.vars.entries
  exact madeOf_record (by simp [he, ha, ho, hv])

theorem read?_document : read? (Format.document.body r) = some r.toJson :=
  read?_pretty r.madeOf_toJson

theorem variables_toJson :
    (r.toJson.field? "variables").bind (list? (named? "value" integer?)) =
      some (r.state.vars.entries.map fun entry => (entry.1, entry.2.toInt)) := by
  have hf : r.toJson.field? "variables" =
      some (.array (r.state.vars.entries.map variableToJson)) :=
    field?_record (by simp) (by simp)
  rw [hf]
  exact list?_map fun entry _ => named?_variableToJson entry

theorem arrays_toJson :
    (r.toJson.field? "arrays").bind (list? (named? "values" (list? integer?))) =
      some (r.state.arrays.entries.map fun entry => (entry.1, entry.2.toList.map Int64.toInt)) := by
  have hf : r.toJson.field? "arrays" = some (.array (r.state.arrays.entries.map arrayToJson)) :=
    field?_record (by simp) (by simp)
  rw [hf]
  exact list?_map fun entry _ => named?_arrayToJson entry

theorem outputs_toJson :
    (r.toJson.field? "outputs").bind (list? text?) = some r.state.outputs.toList := by
  have hf : r.toJson.field? "outputs" = some (.array (r.state.outputs.toList.map .ofString)) :=
    field?_record (by simp) (by simp)
  rw [hf]
  exact mapM_map_eq_some fun line _ => text?_ofString line

theorem error_toJson :
    r.toJson.field? "error" = some ((r.failure.map Failure.toJson).getD .null) :=
  field?_record (by simp) (by simp)

/-- A failure is a record, and no record is null. -/
theorem error_toJson_eq_null_iff : r.toJson.field? "error" = some .null ↔ r.failure = none := by
  rw [r.error_toJson]
  cases r.failure with
  | none => simp
  | some f => simp [Failure.toJson, record]

/-- Reports of the same document show the same state. -/
theorem state_eq_of_toJson {r r' : Report} (h : r.toJson = r'.toJson) : r.state = r'.state := by
  have hvars : r.state.vars.entries = r'.state.vars.entries := by
    have hv := r.variables_toJson
    rw [h, r'.variables_toJson, Option.some.injEq] at hv
    refine List.map_injective_iff.2 (fun entry entry' he => ?_) hv.symm
    obtain ⟨hn, hi⟩ := Prod.mk.inj he
    exact Prod.ext hn (Int64.toInt_inj.1 hi)
  have harrays : r.state.arrays.entries = r'.state.arrays.entries := by
    have ha := r.arrays_toJson
    rw [h, r'.arrays_toJson, Option.some.injEq] at ha
    refine List.map_injective_iff.2 (fun entry entry' he => ?_) ha.symm
    obtain ⟨hn, hi⟩ := Prod.mk.inj he
    refine Prod.ext hn (Array.toList_inj.1 ?_)
    exact List.map_injective_iff.2 (fun _ _ => Int64.toInt_inj.1) hi
  have houtputs : r.state.outputs = r'.state.outputs := by
    have ho := r.outputs_toJson
    rw [h, r'.outputs_toJson, Option.some.injEq] at ho
    exact Array.toList_inj.1 ho.symm
  obtain ⟨⟨⟨vars⟩, ⟨arrays⟩, outputs⟩, failure⟩ := r
  obtain ⟨⟨⟨vars'⟩, ⟨arrays'⟩, outputs'⟩, failure'⟩ := r'
  obtain rfl : vars = vars' := hvars
  obtain rfl : arrays = arrays' := harrays
  obtain rfl : outputs = outputs' := houtputs
  rfl

end Report

/-- The text of a report reads back to a document that lists its variables, arrays and outputs in
order, and its failure, or null if no statement has failed. So reports of the same text show the
same variables, arrays and outputs. -/
theorem document_reads_back (r : Report) :
    (∃ text j, Format.document.render r = some text ∧ Json.read? text = some j ∧
      (j.field? "variables").bind (Json.list? (Json.named? "value" Json.integer?)) =
        some (r.state.vars.entries.map fun entry => (entry.1, entry.2.toInt)) ∧
      (j.field? "arrays").bind (Json.list? (Json.named? "values" (Json.list? Json.integer?))) =
        some (r.state.arrays.entries.map fun entry => (entry.1, entry.2.toList.map Int64.toInt)) ∧
      (j.field? "outputs").bind (Json.list? Json.text?) = some r.state.outputs.toList ∧
      (j.field? "error" = some .null ↔ r.failure = none) ∧
      ∀ f, r.failure = some f → ∃ e, j.field? "error" = some e ∧
        (e.field? "statement").bind Json.integer? = some (f.statement : Int) ∧
        (e.field? "code").bind Json.text? = some f.fault.code ∧
        (e.field? "message").bind Json.text? = some f.fault.message ∧
        (e.field? "position").bind (Json.orNull? Json.integer?) =
          some (f.fault.origin.map fun o => (o.span.start : Int))) ∧
    ∀ r' : Report, Format.document.render r = Format.document.render r' →
      r.state.vars = r'.state.vars ∧ r.state.arrays = r'.state.arrays ∧
        r.state.outputs = r'.state.outputs := by
  refine ⟨⟨Format.document.body r, r.toJson, rfl, r.read?_document, r.variables_toJson,
    r.arrays_toJson, r.outputs_toJson, r.error_toJson_eq_null_iff, fun f hf => ?_⟩, fun r' h => ?_⟩
  · have he : r.toJson.field? "error" = some f.toJson := by
      rw [r.error_toJson, hf]
      rfl
    exact ⟨f.toJson, he, f.fields_toJson⟩
  · have hbody : Format.document.body r = Format.document.body r' := Option.some.inj h
    have hj : some r.toJson = some r'.toJson := by
      rw [← r.read?_document, ← r'.read?_document, hbody]
    have hs : r.state = r'.state := Report.state_eq_of_toJson (Option.some.inj hj)
    rw [hs]
    exact ⟨rfl, rfl, rfl⟩

/-- A declaration that is refused for a text with a quote, a line break and a backslash. All of them
are in the message that is read back. -/
theorem document_reads_back_refused :
    let p : Program := ⟨[.declareVariables "x", .declareVariables "\"\n\\"]⟩
    let fault : Fault := .bare (.invalidIdentifier "\"\n\\")
    (p.run 5).failure = some ⟨1, fault⟩ ∧
      ∃ text j e, Format.document.render (p.run 5) = some text ∧ Json.read? text = some j ∧
        (j.field? "variables").bind (Json.list? (Json.named? "value" Json.integer?)) =
          some [("x", 0)] ∧
        j.field? "error" = some e ∧
        (e.field? "message").bind Json.text? = some "Invalid Identifier: '\"\n\\'" ∧
        (e.field? "position").bind (Json.orNull? Json.integer?) = some none := by
  intro p fault
  have hf : (p.run 5).failure = some ⟨1, fault⟩ := by decide +kernel
  have hv : (p.run 5).state.vars.entries = [("x", 0)] := by decide +kernel
  obtain ⟨⟨text, j, ht, hj, hvars, -, -, -, herror⟩, -⟩ := document_reads_back (p.run 5)
  rw [hv] at hvars
  obtain ⟨e, he, -, -, hmessage, hposition⟩ := herror _ hf
  exact ⟨hf, text, j, e, ht, hj, hvars, he, hmessage, hposition⟩

end BlockScript
