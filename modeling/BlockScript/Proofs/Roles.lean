import BlockScript.Proofs.RoundTrip
import Mathlib.Data.List.Forall2

/-!
# What the parts of a program file are read as

A `Role` is what a value in a program file is read as, and `Role.fields` are the fields of a record
with their roles. `Role.Agrees` says of two values that whatever the first is read as in a role, the
second is read as too. Records whose fields agree one by one agree (`Role.RecordsAgree`), and a
statement is read from fields that agree with those of another as the other is
(`Role.FieldsAgree.carries_ofFields?`); nothing else is said of the single kinds of statements.

The reader of statements counts levels down from the depth of the document. The count is never
short (`Statement.carries_ofJsonWithin?`), so there is a reader without a count, which reads a
statement by its fields (`Statement.deep?_eq_some_iff`).
-/

set_option autoImplicit false

namespace BlockScript

/-! ## Results that carry over -/

/-- What the first gives, the second gives too. -/
def Carries {α : Type} (a b : Option α) : Prop :=
  ∀ v, a = some v → b = some v

namespace Carries

variable {α β γ : Type} {a b c : Option α}

theorem refl (a : Option α) : Carries a a :=
  fun _ h => h

theorem none : Carries Option.none b :=
  nofun

theorem trans (h : Carries a b) (h' : Carries b c) : Carries a c :=
  fun v hv => h' v (h v hv)

theorem bind {f g : α → Option β} (h : Carries a b) (hf : ∀ v, Carries (f v) (g v)) :
    Carries (a.bind f) (b.bind g) := by
  intro w hw
  obtain ⟨v, hv, hw⟩ := Option.bind_eq_some_iff.1 hw
  exact Option.bind_eq_some_iff.2 ⟨v, h v hv, hf v w hw⟩

theorem map (h : Carries a b) (f : α → β) : Carries (a.map f) (b.map f) := by
  intro w hw
  obtain ⟨v, hv, hw⟩ := Option.map_eq_some_iff.1 hw
  exact Option.map_eq_some_iff.2 ⟨v, h v hv, hw⟩

theorem mapM {f : α → Option γ} {g : β → Option γ} {as : List α} {bs : List β}
    (h : List.Forall₂ (fun a b => Carries (f a) (g b)) as bs) :
    Carries (as.mapM f) (bs.mapM g) := by
  induction h with
  | nil => exact refl _
  | cons hfirst _ ih =>
    rw [List.mapM_cons, List.mapM_cons]
    exact hfirst.bind fun v => ih.bind fun vs => refl _

end Carries

/-! ## Roles -/

/-- What a value in a program file is read as. -/
inductive Role where
  | file
  | config
  | count
  | program
  | statement (nested : Bool)
  | tag (nested : Bool)
  | text
  | step
  | condition
  | body
  | branches
  | branch
  | otherwise
  /-- Nothing looks at the value. -/
  | skipped
deriving DecidableEq

/-- The roles of the fields of a kind, in order. -/
def Statement.Kind.roles : Kind → List Role
  | .variableDeclaration => [.text]
  | .assignment => [.text, .text]
  | .expression => [.text]
  | .if_ => [.condition, .body, .branches, .otherwise]
  | .while_ => [.condition, .body]
  | .for_ => [.text, .text, .text, .step, .body]
  | .arrayDeclaration => [.text, .text]
  | .arrayAssignment => [.text, .text, .text]
  | .swap => [.text, .text]
  | .arrayFill => [.text, .text]

/-- The fields of a kind with their roles. -/
def Statement.Kind.record (kind : Kind) : List (String × Role) :=
  kind.fields.zip kind.roles

theorem Statement.Kind.length_roles (kind : Kind) : kind.roles.length = kind.fields.length := by
  cases kind <;> rfl

@[simp] theorem Statement.Kind.map_fst_record (kind : Kind) :
    kind.record.map Prod.fst = kind.fields :=
  List.map_fst_zip (Nat.le_of_eq kind.length_roles.symm)

@[simp] theorem Statement.Kind.map_snd_record (kind : Kind) :
    kind.record.map Prod.snd = kind.roles :=
  List.map_snd_zip (Nat.le_of_eq kind.length_roles)

namespace Role

/-- The fields of a record in a role, in order. Those of a statement depend on its kind. -/
def fields : Role → Json → List (String × Role)
  | .file, _ => [("config", .config), ("statements", .program)]
  | .config, _ => [("max_iterations", .count)]
  | .condition, _ => [("left", .text), ("operator", .text), ("right", .text)]
  | .branch, _ => [("condition", .condition), ("body", .body)]
  | .statement nested, j =>
    ("kind", .tag nested) ::
      match Statement.untag? nested j with
      | some (kind, _) => kind.record
      | none => []
  | _, _ => []

/-- The role of an item of an array in a role. A record may be an array of its fields. -/
def item (role : Role) (items : List Json) (i : Nat) : Role :=
  match role with
  | .program => .statement false
  | .body => .statement true
  | .otherwise => .statement true
  | .branches => .branch
  | role =>
    match (role.fields (.array items))[i]? with
    | some (_, r) => r
    | none => .skipped

end Role

/-! ## Readers by role -/

/-- Reads a text. -/
def Json.textOf? : Option Json → Option String
  | some (.string text) => text
  | _ => none

theorem Json.textOf?_eq_some_iff {x : Option Json} {s : String} :
    textOf? x = some s ↔ x = some (.string (some s)) := by
  constructor
  · intro h
    unfold textOf? at h
    split at h
    · rw [h]
    · cases h
  · rintro rfl
    rfl

theorem Json.mem_of_member? {name : String} {members : List (Option String × Json)} {v : Json}
    (h : member? name members = some (some v)) : (some name, v) ∈ members := by
  rw [member?_eq] at h
  split at h
  · cases h
  · next key value hf =>
    cases h
    have hm : (key, v) ∈ members.filter (·.1 == some name) := by
      rw [hf]
      exact List.mem_singleton_self _
    obtain ⟨hmem, hkey⟩ := List.mem_filter.1 hm
    rwa [← eq_of_beq hkey]
  · cases h

/-- Reads the text by which a counter goes up. -/
def Statement.stepOf? : Option Json → Option String
  | none => some "1"
  | x => Json.textOf? x

/-- Reads how often a loop may run its body. -/
def Config.countOf? : Option Json → Option Config
  | none => some ⟨Program.defaultCeiling.toUInt64⟩
  | some (.number n) =>
    match n.natural? with
    | some value => if value < UInt64.size then some ⟨value.toUInt64⟩ else none
    | none => none
  | some _ => none

/-- Reads settings that may be missing. -/
def Config.ofField? : Option Json → Option (Option Config)
  | none => some none
  | some .null => some none
  | some j => (ofJson? j).map some

/-- Reads a program with a reader of statements. -/
def Program.readWith? (read : Json → Option Statement) : Json → Option Program
  | .array items => (items.mapM read).map Program.mk
  | _ => none

/-- Reads a program file with a reader of statements. -/
def ProgramFile.readWith? (read : Json → Option Statement) (j : Json) : Option ProgramFile :=
  match Json.fields? ["config", "statements"] j with
  | some [config, some statements] => do
    let config ← Config.ofField? config
    let program ← Program.readWith? read statements
    some ⟨config, program⟩
  | _ => none

theorem ProgramFile.ofJson?_eq (room : Nat) (j : Json) :
    ofJson? room j = readWith? (Statement.ofJson? (room - 1 - 1)) j := by
  have hp : ∀ statements : Json, Program.ofJson? (room - 1) statements =
      Program.readWith? (Statement.ofJson? (room - 1 - 1)) statements := by
    intro statements
    cases statements <;> rfl
  unfold ofJson? readWith?
  simp only [hp]
  rcases Json.fields? ["config", "statements"] j with
    _ | _ | ⟨config, _ | ⟨_ | statements, _ | _⟩⟩
  case some.cons.cons.some.nil => rcases config with _ | (_ | _ | _ | _ | _ | _) <;> rfl
  all_goals rfl

/-! ## Agreement -/

namespace Role

/-- Whatever the first value is read as in a role, the second is read as too, with readers of
statements of their own. -/
def Agrees (read read' : Bool → Json → Option Statement) (x x' : Option Json) : Role → Prop
  | .file => Carries (x.bind (ProgramFile.readWith? (read false)))
      (x'.bind (ProgramFile.readWith? (read' false)))
  | .config => Carries (Config.ofField? x) (Config.ofField? x')
  | .count => Carries (Config.countOf? x) (Config.countOf? x')
  | .program => Carries (x.bind (Program.readWith? (read false)))
      (x'.bind (Program.readWith? (read' false)))
  | .statement nested => Carries (x.bind (read nested)) (x'.bind (read' nested))
  | .tag nested =>
    Carries (x.bind (Statement.Kind.ofJson? nested)) (x'.bind (Statement.Kind.ofJson? nested))
  | .text => Carries (Json.textOf? x) (Json.textOf? x')
  | .step => Carries (Statement.stepOf? x) (Statement.stepOf? x')
  | .condition => Carries (x.bind Condition.ofJson?) (x'.bind Condition.ofJson?)
  | .body => Carries (Statement.blockOfJson? (read true) x) (Statement.blockOfJson? (read' true) x')
  | .branches =>
    Carries (Statement.branchesOfJson? (read true) x) (Statement.branchesOfJson? (read' true) x')
  | .branch => Carries (x.bind (Statement.branchOfJson? (read true)))
      (x'.bind (Statement.branchOfJson? (read' true)))
  | .otherwise =>
    Carries (Statement.otherwiseOfJson? (read true) x) (Statement.otherwiseOfJson? (read' true) x')
  | .skipped => True

/-- Values agree in their roles, one by one. -/
inductive FieldsAgree (read read' : Bool → Json → Option Statement) :
    List Role → List (Option Json) → List (Option Json) → Prop
  | nil : FieldsAgree read read' [] [] []
  | cons {role : Role} {roles : List Role} {x x' : Option Json} {xs xs' : List (Option Json)}
      (h : role.Agrees read read' x x') (hs : FieldsAgree read read' roles xs xs') :
      FieldsAgree read read' (role :: roles) (x :: xs) (x' :: xs')

/-- The fields of two records agree. -/
def RecordsAgree (read read' : Bool → Json → Option Statement) (fields : List (String × Role))
    (j j' : Json) : Prop :=
  ∀ xs, Json.fields? (fields.map Prod.fst) j = some xs →
    ∃ xs', Json.fields? (fields.map Prod.fst) j' = some xs' ∧
      FieldsAgree read read' (fields.map Prod.snd) xs xs'

section
variable {read read' : Bool → Json → Option Statement} {x x' : Option Json} {j j' : Json}

theorem Agrees.refl (role : Role) (x : Option Json) : role.Agrees read read x x := by
  cases role <;> first | exact Carries.refl _ | trivial

/-- A text agrees with the same text alone. -/
theorem Agrees.eq_of_text {s : String} (h : text.Agrees read read' (some (.string (some s))) x') :
    x' = some (.string (some s)) :=
  Json.textOf?_eq_some_iff.1 (h s rfl)

theorem FieldsAgree.eq_of_texts (texts : List String) {xs' : List (Option Json)}
    (h : FieldsAgree read read' (texts.map fun _ => text)
      (texts.map fun s => some (.string (some s))) xs') :
    texts.map (fun s => some (.string (some s))) = xs' := by
  induction texts generalizing xs' with
  | nil => cases h; rfl
  | cons s texts ih =>
    obtain _ | ⟨hs, hrest⟩ := h
    rw [List.map_cons, ih hrest, hs.eq_of_text]

/-! ### Records -/

theorem RecordsAgree.carries_condition
    (h : RecordsAgree read read' (fields .condition j) j j') :
    Carries (Condition.ofJson? j) (Condition.ofJson? j') := by
  intro c hc
  unfold Condition.ofJson? at hc
  split at hc
  · next left operator right hf =>
    cases hc
    obtain ⟨xs', hf', ha⟩ := h _ hf
    cases FieldsAgree.eq_of_texts [_, _, _] ha
    change Json.fields? ["left", "operator", "right"] j' = _ at hf'
    rw [Condition.ofJson?, hf']
    rfl
  · cases hc

theorem RecordsAgree.carries_branch (h : RecordsAgree read read' (fields .branch j) j j') :
    Carries (Statement.branchOfJson? (read true) j) (Statement.branchOfJson? (read' true) j') := by
  intro branch hbranch
  unfold Statement.branchOfJson? at hbranch
  split at hbranch
  · next c body hf =>
    obtain ⟨xs', hf', ha⟩ := h _ hf
    obtain _ | ⟨hcondition, _ | ⟨hbody, _ | _⟩⟩ := ha
    obtain ⟨condition, hc, hbranch⟩ := Option.bind_eq_some_iff.1 hbranch
    obtain ⟨block, hb, hbranch⟩ := Option.bind_eq_some_iff.1 hbranch
    obtain ⟨c', rfl, hc'⟩ := Option.bind_eq_some_iff.1 (hcondition condition hc)
    change Json.fields? ["condition", "body"] j' = _ at hf'
    rw [Statement.branchOfJson?, hf']
    exact Option.bind_eq_some_iff.2 ⟨condition, hc',
      Option.bind_eq_some_iff.2 ⟨block, hbody block hb, hbranch⟩⟩
  · cases hbranch

theorem ofJson?_config_of_fields? {x : Option Json}
    (hf : Json.fields? ["max_iterations"] j = some [x]) :
    Config.ofJson? j = Config.countOf? x := by
  rw [Config.ofJson?, hf]
  rcases x with _ | (_ | _ | _ | _ | _ | _) <;> rfl

theorem RecordsAgree.carries_config (h : RecordsAgree read read' (fields .config j) j j') :
    Carries (Config.ofJson? j) (Config.ofJson? j') := by
  intro c hc
  have hx : ∃ x, Json.fields? ["max_iterations"] j = some [x] := by
    unfold Config.ofJson? at hc
    split at hc
    · next hf => exact ⟨_, hf⟩
    · next hf => exact ⟨_, hf⟩
    · cases hc
  obtain ⟨x, hf⟩ := hx
  obtain ⟨xs', hf', ha⟩ := h _ hf
  obtain _ | ⟨hcount, _ | _⟩ := ha
  rw [ofJson?_config_of_fields? hf] at hc
  rw [ofJson?_config_of_fields? hf']
  exact hcount c hc

theorem RecordsAgree.carries_file (h : RecordsAgree read read' (fields .file j) j j') :
    Carries (ProgramFile.readWith? (read false) j) (ProgramFile.readWith? (read' false) j') := by
  intro f hfile
  unfold ProgramFile.readWith? at hfile
  split at hfile
  · next config statements hf =>
    obtain ⟨xs', hf', ha⟩ := h _ hf
    obtain _ | ⟨hconfig, _ | ⟨hprogram, _ | _⟩⟩ := ha
    obtain ⟨c, hc, hfile⟩ := Option.bind_eq_some_iff.1 hfile
    obtain ⟨p, hp, hfile⟩ := Option.bind_eq_some_iff.1 hfile
    obtain ⟨statements', rfl, hp'⟩ := Option.bind_eq_some_iff.1 (hprogram p hp)
    change Json.fields? ["config", "statements"] j' = _ at hf'
    rw [ProgramFile.readWith?, hf']
    exact Option.bind_eq_some_iff.2 ⟨c, hconfig c hc,
      Option.bind_eq_some_iff.2 ⟨p, hp', hfile⟩⟩
  · cases hfile

theorem ofFields?_for (counter first last : String) (step body : Option Json) :
    Statement.ofFields? (read true) .for_ [some (.string (some counter)),
        some (.string (some first)), some (.string (some last)), step, body] = (do
      let step ← Statement.stepOf? step
      let body ← Statement.blockOfJson? (read true) body
      some (.forLoop counter first last step body)) := by
  rcases step with _ | (_ | _ | _ | (_ | _) | _ | _) <;> rfl

/-- A statement is read from fields that agree with those of another as the other is. -/
theorem FieldsAgree.carries_ofFields? {kind : Statement.Kind} {xs xs' : List (Option Json)}
    (h : FieldsAgree read read' kind.roles xs xs') :
    Carries (Statement.ofFields? (read true) kind xs)
      (Statement.ofFields? (read' true) kind xs') := by
  intro t ht
  have hread := ht
  -- One case for each kind whose fields have the right form.
  unfold Statement.ofFields? at ht
  split at ht
  · cases FieldsAgree.eq_of_texts [_] h
    exact hread
  · cases FieldsAgree.eq_of_texts [_, _] h
    exact hread
  · cases FieldsAgree.eq_of_texts [_] h
    exact hread
  · obtain _ | ⟨h1, _ | ⟨h2, _ | ⟨h3, _ | ⟨h4, _ | _⟩⟩⟩⟩ := h
    obtain ⟨condition, hc, ht⟩ := Option.bind_eq_some_iff.1 ht
    obtain ⟨c', rfl, hc'⟩ := Option.bind_eq_some_iff.1 (h1 condition hc)
    obtain ⟨body, hb, ht⟩ := Option.bind_eq_some_iff.1 ht
    obtain ⟨elseIfs, he, ht⟩ := Option.bind_eq_some_iff.1 ht
    obtain ⟨otherwise, ho, ht⟩ := Option.bind_eq_some_iff.1 ht
    simp [Statement.ofFields?, hc', h2 body hb, h3 elseIfs he, h4 otherwise ho, ← ht]
  · obtain _ | ⟨h1, _ | ⟨h2, _ | _⟩⟩ := h
    obtain ⟨condition, hc, ht⟩ := Option.bind_eq_some_iff.1 ht
    obtain ⟨c', rfl, hc'⟩ := Option.bind_eq_some_iff.1 (h1 condition hc)
    obtain ⟨body, hb, ht⟩ := Option.bind_eq_some_iff.1 ht
    simp [Statement.ofFields?, hc', h2 body hb, ← ht]
  · obtain _ | ⟨h1, _ | ⟨h2, _ | ⟨h3, _ | ⟨h4, _ | ⟨h5, _ | _⟩⟩⟩⟩⟩ := h
    cases h1.eq_of_text
    cases h2.eq_of_text
    cases h3.eq_of_text
    rw [ofFields?_for] at hread ⊢
    obtain ⟨step, hstep, hread⟩ := Option.bind_eq_some_iff.1 hread
    obtain ⟨body, hb, hread⟩ := Option.bind_eq_some_iff.1 hread
    simp [h4 step hstep, h5 body hb, ← hread]
  · cases FieldsAgree.eq_of_texts [_, _] h
    exact hread
  · cases FieldsAgree.eq_of_texts [_, _, _] h
    exact hread
  · cases FieldsAgree.eq_of_texts [_, _] h
    exact hread
  · cases FieldsAgree.eq_of_texts [_, _] h
    exact hread
  · cases ht

/-! ### Members and items -/

theorem Agrees.none_none (role : Role) : role.Agrees read read' none none := by
  cases role <;> first | exact Carries.refl _ | trivial

theorem recordsAgree_object {fields : List (String × Role)}
    {members members' : List (Option String × Json)}
    (hk : (∀ member ∈ members, member.1.isSome) → ∀ member ∈ members', member.1.isSome)
    (h : ∀ f ∈ fields, ∀ x, Json.member? f.1 members = some x →
      ∃ x', Json.member? f.1 members' = some x' ∧ f.2.Agrees read read' x x') :
    RecordsAgree read read' fields (.object members) (.object members') := by
  intro xs hxs
  simp only [Json.fields?, List.all_eq_true] at hxs ⊢
  split at hxs
  · next hkeys =>
    rw [if_pos (hk hkeys)]
    clear hk hkeys
    induction fields generalizing xs with
    | nil =>
      cases hxs
      exact ⟨[], rfl, .nil⟩
    | cons f fields ih =>
      obtain ⟨hf, hfields⟩ := List.forall_mem_cons.1 h
      rw [List.map_cons, List.mapM_cons] at hxs
      obtain ⟨x, hx, hxs⟩ := Option.bind_eq_some_iff.1 hxs
      obtain ⟨rest, hrest, hxs⟩ := Option.bind_eq_some_iff.1 hxs
      cases hxs
      obtain ⟨x', hx', hagree⟩ := hf x hx
      obtain ⟨rest', hrest', hagrees⟩ := ih hfields rest hrest
      refine ⟨x' :: rest', ?_, .cons hagree hagrees⟩
      rw [List.map_cons, List.mapM_cons, hx', hrest']
      rfl
  · cases hxs

/-- Items in the place of fields. -/
theorem fieldsAgree_items {fields : List (String × Role)} {items items' : List Json}
    (hl : items.length ≤ fields.length) (hl' : items'.length = items.length)
    (h : ∀ (i : Nat) (f : String × Role) (item item' : Json), fields[i]? = some f →
      items[i]? = some item → items'[i]? = some item' →
      f.2.Agrees read read' (some item) (some item')) :
    FieldsAgree read read' (fields.map Prod.snd)
      (items.map some ++ List.replicate (fields.length - items.length) none)
      (items'.map some ++ List.replicate (fields.length - items'.length) none) := by
  induction fields generalizing items items' with
  | nil =>
    obtain rfl : items = [] := List.eq_nil_of_length_eq_zero (Nat.le_zero.1 hl)
    obtain rfl : items' = [] := List.eq_nil_of_length_eq_zero hl'
    exact .nil
  | cons f fields ih =>
    match items, items' with
    | [], [] =>
      exact .cons (.none_none f.2) (@ih [] [] (Nat.zero_le _) rfl nofun)
    | item :: items, item' :: items' =>
      simp only [List.length_cons, Nat.add_sub_add_right]
      refine .cons (h 0 f item item' rfl rfl rfl) (ih ?_ ?_ fun i => h (i + 1))
      · exact Nat.le_of_succ_le_succ hl
      · exact Nat.succ.inj hl'

theorem recordsAgree_array {fields : List (String × Role)} {items items' : List Json}
    (hl : items'.length = items.length)
    (h : ∀ (i : Nat) (f : String × Role) (item item' : Json), fields[i]? = some f →
      items[i]? = some item → items'[i]? = some item' →
      f.2.Agrees read read' (some item) (some item')) :
    RecordsAgree read read' fields (.array items) (.array items') := by
  intro xs hxs
  simp only [Json.fields?, List.length_map] at hxs ⊢
  split at hxs
  · next hle =>
    cases hxs
    rw [if_pos (hl ▸ hle)]
    exact ⟨_, rfl, fieldsAgree_items hle hl h⟩
  · cases hxs

/-- The same record, with values that are read alike. -/
theorem recordsAgree_self {fields : List (String × Role)}
    (h : ∀ f ∈ fields, ∀ v : Json, v.depth < j.depth → f.2.Agrees read read' (some v) (some v)) :
    RecordsAgree read read' fields j j := by
  cases j with
  | object members =>
    refine recordsAgree_object id fun f hf x hx => ⟨x, hx, ?_⟩
    cases x with
    | none => exact .none_none f.2
    | some v => exact h f hf v (Json.depth_lt_object (Json.mem_of_member? hx))
  | array items =>
    refine recordsAgree_array rfl fun i f item item' hf hitem hitem' => ?_
    cases hitem.symm.trans hitem'
    exact h f (List.mem_of_getElem? hf) item (Json.depth_lt_array (List.mem_of_getElem? hitem))
  | null | bool | number | string => nofun

/-! ### The same value, with another reader -/

section
variable {d : Nat}
  (h : ∀ (nested : Bool) (i : Json), i.depth < d → Carries (read nested i) (read' nested i))
include h

theorem carries_items {items : List Json} (hd : (Json.array items).depth ≤ d) (nested : Bool) :
    Carries (items.mapM (read nested)) (items.mapM (read' nested)) :=
  Carries.mapM (List.forall₂_same.2 fun i hi =>
    h nested i (Nat.lt_of_lt_of_le (Json.depth_lt_array hi) hd))

theorem carries_block {v : Json} (hv : v.depth ≤ d) :
    Carries (Statement.blockOfJson? (read true) (some v))
      (Statement.blockOfJson? (read' true) (some v)) := by
  cases v with
  | array items => exact carries_items h hv true
  | null | bool | number | string | object => exact .none

theorem carries_branch {v : Json} (hv : v.depth ≤ d) :
    Carries (Statement.branchOfJson? (read true) v) (Statement.branchOfJson? (read' true) v) := by
  refine RecordsAgree.carries_branch (recordsAgree_self fun f hf w hw => ?_)
  rcases List.mem_pair.1 hf with rfl | rfl
  · exact Carries.refl _
  · exact carries_block h (Nat.le_of_lt (Nat.lt_of_lt_of_le hw hv))

theorem carries_program {v : Json} (hv : v.depth ≤ d) :
    Carries (Program.readWith? (read false) v) (Program.readWith? (read' false) v) := by
  cases v with
  | array items => exact (carries_items h hv false).map _
  | null | bool | number | string | object => exact .none

theorem carries_file {v : Json} (hv : v.depth ≤ d + 1) :
    Carries (ProgramFile.readWith? (read false) v) (ProgramFile.readWith? (read' false) v) := by
  refine RecordsAgree.carries_file (recordsAgree_self fun f hf w hw => ?_)
  rcases List.mem_pair.1 hf with rfl | rfl
  · exact Carries.refl _
  · exact carries_program h (Nat.le_of_lt_succ (Nat.lt_of_lt_of_le hw hv))

/-- A value agrees with itself when the readers agree on the statements inside of it. -/
theorem agrees_self {role : Role} (hr : ∀ nested, role ≠ .statement nested) {v : Json}
    (hv : v.depth ≤ d) : role.Agrees read read' (some v) (some v) := by
  cases role with
  | statement nested => exact absurd rfl (hr nested)
  | file => exact carries_file h (Nat.le_succ_of_le hv)
  | program => exact carries_program h hv
  | body => exact carries_block h hv
  | branch => exact carries_branch h hv
  | branches =>
    cases v with
    | array items =>
      refine Carries.mapM (List.forall₂_same.2 fun i hi => carries_branch h ?_)
      exact Nat.le_of_lt (Nat.lt_of_lt_of_le (Json.depth_lt_array hi) hv)
    | null | bool | number | string | object => exact .none
  | otherwise =>
    cases v with
    | null => exact Carries.refl _
    | array | bool | number | string | object => exact (carries_block h hv).map some
  | config | count | tag | text | step | condition => exact Carries.refl _
  | skipped => trivial

end

end

end Role

/-! ## Reading without a count -/

namespace Statement

theorem Kind.statement_not_mem_roles (kind : Kind) (nested : Bool) :
    Role.statement nested ∉ kind.roles := by
  cases kind <;> simp [roles]

/-- What is left without the kind is no deeper than the statement. -/
theorem depth_of_untag? {nested : Bool} {j record : Json} {kind : Kind}
    (h : untag? nested j = some (kind, record)) : 0 < j.depth ∧ record.depth ≤ j.depth := by
  unfold untag? at h
  split at h
  · obtain ⟨tag, -, h⟩ := Option.bind_eq_some_iff.1 h
    obtain ⟨value, -, h⟩ := Option.bind_eq_some_iff.1 h
    obtain ⟨kind', -, h⟩ := Option.bind_eq_some_iff.1 h
    cases h
    exact ⟨Nat.succ_pos _, Nat.le_refl _⟩
  · obtain ⟨kind', -, h⟩ := Option.bind_eq_some_iff.1 h
    cases h
    refine ⟨Nat.succ_pos _, ?_⟩
    simp only [Json.depth, Json.depthItems]
    omega
  · cases h

/-- A statement is read alike by readers that agree on the statements inside of it. -/
theorem carries_fields (read read' : Bool → Json → Option Statement) {nested : Bool}
    {j record : Json} {kind : Kind} {xs : List (Option Json)}
    (h : ∀ (nested : Bool) (i : Json), i.depth + 1 < j.depth →
      Carries (read nested i) (read' nested i))
    (hu : untag? nested j = some (kind, record)) (hf : Json.fields? kind.fields record = some xs) :
    Carries (ofFields? (read true) kind xs) (ofFields? (read' true) kind xs) := by
  have hd := depth_of_untag? hu
  have hr : Role.RecordsAgree read read' kind.record record record := by
    refine Role.recordsAgree_self fun f hf v hv => ?_
    refine @Role.agrees_self read read' (j.depth - 1) (fun nested i hi => h nested i (by omega)) f.2
      (fun nested he => ?_) v (by omega)
    exact kind.statement_not_mem_roles nested (he ▸ (List.of_mem_zip hf).2)
  rw [Role.RecordsAgree, kind.map_fst_record, kind.map_snd_record] at hr
  obtain ⟨xs', hxs', ha⟩ := hr xs hf
  cases hf.symm.trans hxs'
  exact ha.carries_ofFields?

/-- The count of levels is never short when it starts with the depth. -/
theorem carries_ofJsonWithin? {n m : Nat} {nested : Bool} {j : Json} (hm : j.depth ≤ m) :
    Carries (ofJsonWithin? n nested j) (ofJsonWithin? m nested j) := by
  induction n generalizing m nested j with
  | zero => exact .none
  | succ n ih =>
    intro t ht
    rw [ofJsonWithin?] at ht
    obtain ⟨⟨kind, record⟩, hu, ht⟩ := Option.bind_eq_some_iff.1 ht
    obtain ⟨xs, hf, ht⟩ := Option.bind_eq_some_iff.1 ht
    have hd := depth_of_untag? hu
    obtain ⟨m, rfl⟩ : ∃ k, m = k + 1 := ⟨m - 1, by omega⟩
    have ht' := carries_fields (ofJsonWithin? n) (ofJsonWithin? m)
      (fun nested i hi => ih (by omega)) hu hf t ht
    rw [ofJsonWithin?, hu]
    simp [hf, ht']

/-- Reads a statement, however deep it is. -/
def deep? (nested : Bool) (j : Json) : Option Statement :=
  ofJsonWithin? j.depth nested j

theorem deep?_eq_some_iff {nested : Bool} {j : Json} {t : Statement} :
    deep? nested j = some t ↔
      ∃ kind record xs, untag? nested j = some (kind, record) ∧
        Json.fields? kind.fields record = some xs ∧ ofFields? (deep? true) kind xs = some t := by
  constructor
  · intro h
    rw [deep?] at h
    cases hd : j.depth with
    | zero => rw [hd] at h; cases h
    | succ d =>
      rw [hd, ofJsonWithin?] at h
      obtain ⟨⟨kind, record⟩, hu, h⟩ := Option.bind_eq_some_iff.1 h
      obtain ⟨xs, hf, h⟩ := Option.bind_eq_some_iff.1 h
      refine ⟨kind, record, xs, hu, hf, ?_⟩
      exact carries_fields (ofJsonWithin? d) deep?
        (fun nested i _ => carries_ofJsonWithin? (Nat.le_refl _)) hu hf t h
  · rintro ⟨kind, record, xs, hu, hf, h⟩
    obtain ⟨d, hd⟩ : ∃ d, j.depth = d + 1 := ⟨j.depth - 1, by have := depth_of_untag? hu; omega⟩
    have h' := carries_fields deep? (ofJsonWithin? d)
      (fun nested i hi => carries_ofJsonWithin? (by omega)) hu hf t h
    rw [deep?, hd, ofJsonWithin?, hu]
    simp [hf, h']

end Statement

end BlockScript
