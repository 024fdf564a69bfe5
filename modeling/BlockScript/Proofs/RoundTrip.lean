import BlockScript.ProgramFile.Reader
import BlockScript.Proofs.Children
import BlockScript.Proofs.Documents

/-!
# Program files are read back

What is written for a program file, or for a part of one, is read back as the same value as long as
it does not nest too deep (`RoundTrips`, `encode_roundTrips`).

A record holds the fields that were written into it (`Json.fields?_record`), and a statement is read
back from its record when the statements inside of it are (`Statement.ofJsonWithin?_of_children`).
The reader of statements counts levels of statements down from the depth of the document; a
statement inside of another is at least two arrays or objects less deep
(`Statement.depth_toJson_of_mem_children`), so that the count is never short.
-/

set_option autoImplicit false

namespace BlockScript

namespace Json

/-! ## Depth -/

theorem depth_lt_array {item : Json} {items : List Json} (h : item ∈ items) :
    item.depth < (array items).depth := by
  rw [depth]
  induction items with
  | nil => cases h
  | cons head items ih =>
    rw [depthItems]
    rcases List.mem_cons.1 h with rfl | h
    · omega
    · have := ih h
      omega

theorem depth_lt_object {key : Option String} {value : Json}
    {members : List (Option String × Json)} (h : (key, value) ∈ members) :
    value.depth < (object members).depth := by
  rw [depth]
  induction members with
  | nil => cases h
  | cons head members ih =>
    obtain ⟨key', value'⟩ := head
    rw [depthMembers]
    rcases List.mem_cons.1 h with h | h
    · cases h
      omega
    · have := ih h
      omega

theorem depth_lt_record {key : String} {value : Json} {members : List (String × Json)}
    (h : (key, value) ∈ members) : value.depth < (record members).depth :=
  depth_lt_object (List.mem_map_of_mem h)

/-! ## Records -/

theorem madeOf_record {P : Number → Prop} {members : List (String × Json)}
    (h : ∀ member ∈ members, MadeOf P member.2) : MadeOf P (record members) := by
  refine .object (fun member hm => ?_) fun member hm => ?_
  · obtain ⟨_, -, rfl⟩ := List.mem_map.1 hm
    rfl
  · obtain ⟨member, hmember, rfl⟩ := List.mem_map.1 hm
    exact h member hmember

/-- A member is looked up among those that have its name. -/
theorem member?_eq (name : String) (members : List (Option String × Json)) :
    member? name members =
      match members.filter (·.1 == some name) with
      | [] => some none
      | [(_, value)] => some (some value)
      | _ => none :=
  rfl

theorem member?_append {name : String} {value : Json} (before : List (Option String × Json))
    {after : List (Option String × Json)} (hb : ∀ member ∈ before, member.1 ≠ some name)
    (ha : ∀ member ∈ after, member.1 ≠ some name) :
    member? name (before ++ (some name, value) :: after) = some (some value) := by
  have none_of : ∀ {members : List (Option String × Json)},
      (∀ member ∈ members, member.1 ≠ some name) →
      members.filter (·.1 == some name) = [] := by
    intro members hm
    refine List.filter_eq_nil_iff.2 fun member hmem => ?_
    simpa using hm member hmem
  simp [member?_eq, List.filter_append, none_of hb, none_of ha]

/-- The members of a record. -/
def keyed (members : List (String × Json)) : List (Option String × Json) :=
  members.map fun (key, value) => (some key, value)

theorem keyed_ne {members : List (String × Json)} {name : String}
    (h : ∀ member ∈ members, member.1 ≠ name) : ∀ member ∈ keyed members, member.1 ≠ some name := by
  intro member hm he
  obtain ⟨member, hmember, rfl⟩ := List.mem_map.1 hm
  exact h member hmember (Option.some.inj he)

theorem mapM_member? (before : List (String × Json)) {names : List String} (values : List Json)
    (hn : names.Nodup) (hl : values.length = names.length)
    (hb : ∀ member ∈ before, member.1 ∉ names) :
    names.mapM (member? · (keyed (before ++ names.zip values))) = some (values.map some) := by
  induction names generalizing values before with
  | nil =>
    obtain rfl : values = [] := List.eq_nil_of_length_eq_zero hl
    rfl
  | cons name names ih =>
    cases values with
    | nil => cases hl
    | cons value values =>
      obtain ⟨hname, hnames⟩ := List.nodup_cons.1 hn
      -- The field is the only member of its name: what is before has other names, and the fields
      -- behind it too.
      have hfirst : member? name (keyed (before ++ (name, value) :: names.zip values)) =
          some (some value) := by
        rw [keyed, List.map_append, List.map_cons]
        refine member?_append _ (keyed_ne fun member hm he => ?_) (keyed_ne fun member hm he => ?_)
        · exact hb member hm (he ▸ List.mem_cons_self)
        · exact hname (he ▸ (List.of_mem_zip hm).1)
      have hother : ∀ member ∈ before ++ [(name, value)], member.1 ∉ names := by
        intro member hm
        rcases List.mem_append.1 hm with hm | hm
        · exact fun h => hb member hm (List.mem_cons_of_mem name h)
        · cases List.mem_singleton.1 hm
          exact hname
      have hrest := ih (before ++ [(name, value)]) values hnames (Nat.succ.inj hl) hother
      rw [List.append_assoc, List.singleton_append] at hrest
      rw [List.zip_cons_cons, List.mapM_cons, hfirst, hrest]
      rfl

/-- A record holds the fields that were written into it, whatever stands before them under other
names. -/
theorem fields?_record (before : List (String × Json)) {names : List String} (values : List Json)
    (hn : names.Nodup) (hl : values.length = names.length)
    (hb : ∀ member ∈ before, member.1 ∉ names) :
    fields? names (record (before ++ names.zip values)) = some (values.map some) := by
  have hk : (keyed (before ++ names.zip values)).all (·.1.isSome) := by
    simp [keyed]
  exact (if_pos hk).trans (mapM_member? before values hn hl hb)

@[simp] theorem madeOf_ofString {P : Number → Prop} (s : String) : (ofString s).MadeOf P :=
  .string s

end Json

/-! ## Statements -/

/-- What is read from written items, when each of them gives its own. -/
theorem mapM_map_eq_some_map {α β γ : Type} {f : β → Option γ} {g : α → β} {k : α → γ}
    {as : List α} (h : ∀ a ∈ as, f (g a) = some (k a)) : (as.map g).mapM f = some (as.map k) := by
  induction as with
  | nil => rfl
  | cons a as ih =>
    obtain ⟨ha, has⟩ := List.forall_mem_cons.1 h
    rw [List.map_cons, List.mapM_cons, ha, ih has]
    rfl

theorem mapM_map_eq_some {α β : Type} {f : β → Option α} {g : α → β} {as : List α}
    (h : ∀ a ∈ as, f (g a) = some a) : (as.map g).mapM f = some as := by
  rw [mapM_map_eq_some_map h, List.map_id']

theorem Condition.ofJson?_toJson (c : Condition) : ofJson? c.toJson = some c := by
  have hf : Json.fields? ["left", "operator", "right"] c.toJson =
      some [some (.ofString c.left), some (.ofString c.operator), some (.ofString c.right)] :=
    Json.fields?_record [] [_, _, _] (by decide) rfl nofun
  rw [ofJson?, hf]
  rfl

theorem Condition.madeOf_toJson {P : Json.Number → Prop} (c : Condition) : c.toJson.MadeOf P := by
  refine Json.madeOf_record ?_
  simp

namespace Statement

theorem blockToJson_eq (block : List Statement) : blockToJson block = block.map toJson := by
  induction block with
  | nil => rfl
  | cons t block ih => rw [blockToJson, ih, List.map_cons]

theorem branchesToJson_eq (branches : List (Condition × List Statement)) :
    branchesToJson branches =
      branches.map fun branch => branchToJson branch.1 (blockToJson branch.2) := by
  induction branches with
  | nil => rfl
  | cons branch branches ih => rw [branchesToJson, ih, List.map_cons]

theorem Kind.ofJson?_tag (nested : Bool) (kind : Kind) :
    Kind.ofJson? nested (.ofString kind.tag) = some kind := by
  change Kind.all.find? (·.tag == kind.tag) = some kind
  cases kind <;> decide +kernel

theorem Kind.nodup_fields (kind : Kind) : kind.fields.Nodup := by
  cases kind <;> decide +kernel

theorem Kind.tag_not_mem_fields (kind : Kind) : "kind" ∉ kind.fields := by
  cases kind <;> decide +kernel

theorem untag?_tagged (nested : Bool) (kind : Kind) (values : List Json) :
    untag? nested (tagged kind values) = some (kind, tagged kind values) := by
  have hm : Json.member? "kind" (Json.keyed (("kind", .ofString kind.tag) ::
      kind.fields.zip values)) = some (some (.ofString kind.tag)) := by
    refine Json.member?_append [] nofun (Json.keyed_ne fun member hm he => ?_)
    exact kind.tag_not_mem_fields (he ▸ (List.of_mem_zip hm).1)
  change (Json.member? "kind" (Json.keyed _) >>= fun tag => _) = _
  rw [hm]
  change (Kind.ofJson? nested (.ofString kind.tag) >>= fun kind => _) = _
  rw [Kind.ofJson?_tag]
  rfl

/-- A statement is read by its kind from the fields that were written. -/
theorem ofJsonWithin?_tagged {n : Nat} {nested : Bool} {kind : Kind} {values : List Json}
    (hl : values.length = kind.fields.length) :
    ofJsonWithin? (n + 1) nested (tagged kind values) =
      ofFields? (ofJsonWithin? n true) kind (values.map some) := by
  have hf : Json.fields? kind.fields (tagged kind values) = some (values.map some) := by
    refine Json.fields?_record [_] values kind.nodup_fields hl fun member hm => ?_
    cases List.mem_singleton.1 hm
    exact kind.tag_not_mem_fields
  rw [ofJsonWithin?, untag?_tagged]
  simp [hf]

section
variable {read : Json → Option Statement}

theorem blockOfJson?_toJson {block : List Statement}
    (h : ∀ u ∈ block, read u.toJson = some u) :
    blockOfJson? read (some (.array (blockToJson block))) = some block := by
  rw [blockToJson_eq, blockOfJson?]
  exact mapM_map_eq_some h

theorem branchOfJson?_toJson {condition : Condition} {body : List Statement}
    (h : ∀ u ∈ body, read u.toJson = some u) :
    branchOfJson? read (branchToJson condition (blockToJson body)) = some (condition, body) := by
  have hf : Json.fields? ["condition", "body"] (branchToJson condition (blockToJson body)) =
      some [some condition.toJson, some (.array (blockToJson body))] :=
    Json.fields?_record [] [_, _] (by decide) rfl nofun
  rw [branchOfJson?, hf]
  simp [condition.ofJson?_toJson, blockOfJson?_toJson h]

theorem branchesOfJson?_toJson {branches : List (Condition × List Statement)}
    (h : ∀ u ∈ branches.flatMap (·.2), read u.toJson = some u) :
    branchesOfJson? read (some (.array (branchesToJson branches))) = some branches := by
  rw [branchesToJson_eq, branchesOfJson?]
  refine mapM_map_eq_some fun branch hb => branchOfJson?_toJson fun u hu => h u ?_
  exact List.mem_flatMap_of_mem hb hu

theorem otherwiseOfJson?_toJson {otherwise : Option (List Statement)}
    (h : ∀ u ∈ otherwise.getD [], read u.toJson = some u) :
    otherwiseOfJson? read (some (otherwiseToJson otherwise)) = some otherwise := by
  cases otherwise with
  | none => rfl
  | some body =>
    have hb : blockOfJson? read (some (.array (blockToJson body))) = some body :=
      blockOfJson?_toJson h
    rw [otherwiseToJson, otherwiseOfJson?, hb]
    · rfl
    · nofun

end

/-- A statement is read back when the statements directly inside of it are. -/
theorem ofJsonWithin?_of_children {t : Statement} {n : Nat}
    (h : ∀ u ∈ t.children, ofJsonWithin? n true u.toJson = some u) (nested : Bool) :
    ofJsonWithin? (n + 1) nested t.toJson = some t := by
  cases t with
  | ifElse condition body elseIfs otherwise =>
    rw [children, List.forall_mem_append, List.forall_mem_append] at h
    obtain ⟨hb, he, ho⟩ := h
    rw [toJson, ofJsonWithin?_tagged rfl]
    simp [ofFields?, condition.ofJson?_toJson, blockOfJson?_toJson hb, branchesOfJson?_toJson he,
      otherwiseOfJson?_toJson ho]
  | whileLoop condition body =>
    rw [children] at h
    rw [toJson, ofJsonWithin?_tagged rfl]
    simp [ofFields?, condition.ofJson?_toJson, blockOfJson?_toJson h]
  | forLoop counter first last step body =>
    rw [children] at h
    rw [toJson, ofJsonWithin?_tagged rfl]
    simp [ofFields?, Json.ofString, blockOfJson?_toJson h]
  | declareVariables | assign | output | declareArray | assignElement | swap | fill =>
    rw [toJson, ofJsonWithin?_tagged rfl]
    rfl

/-! ### Depth of a statement -/

theorem depth_lt_tagged {kind : Kind} {values : List Json} {value : Json}
    (hl : values.length = kind.fields.length) (h : value ∈ values) :
    value.depth < (tagged kind values).depth := by
  rw [← List.map_snd_zip (Nat.le_of_eq hl)] at h
  obtain ⟨member, hm, rfl⟩ := List.mem_map.1 h
  exact Json.depth_lt_record (List.mem_cons_of_mem _ hm)

theorem depth_lt_block {u : Statement} {block : List Statement} (h : u ∈ block) :
    u.toJson.depth < (Json.array (blockToJson block)).depth := by
  rw [blockToJson_eq]
  exact Json.depth_lt_array (List.mem_map_of_mem h)

theorem depth_lt_branch {condition : Condition} {u : Statement} {body : List Statement}
    (h : u ∈ body) :
    u.toJson.depth + 1 < (branchToJson condition (blockToJson body)).depth := by
  have hu : u.toJson.depth < (Json.array (blockToJson body)).depth := depth_lt_block h
  have hb : (Json.array (blockToJson body)).depth <
      (branchToJson condition (blockToJson body)).depth :=
    Json.depth_lt_record (List.mem_cons_of_mem _ (List.mem_singleton_self _))
  omega

theorem depth_lt_body {kind : Kind} {values : List Json} {block : List Statement} {u : Statement}
    (hl : values.length = kind.fields.length) (hb : .array (blockToJson block) ∈ values)
    (hu : u ∈ block) : u.toJson.depth + 1 < (tagged kind values).depth := by
  have h := depth_lt_block hu
  have h' := depth_lt_tagged hl hb
  omega

/-- A statement inside of another is in an array, and the array in an object. -/
theorem depth_toJson_of_mem_children {t u : Statement} (h : u ∈ t.children) :
    u.toJson.depth + 1 < t.toJson.depth := by
  cases t with
  | ifElse condition body elseIfs otherwise =>
    rw [children, List.mem_append, List.mem_append] at h
    rcases h with h | h | h
    · exact depth_lt_body rfl (by simp) h
    · obtain ⟨branch, hb, hu⟩ := List.mem_flatMap.1 h
      have hbranch : u.toJson.depth + 1 < (branchToJson branch.1 (blockToJson branch.2)).depth :=
        depth_lt_branch hu
      have hbranches : (branchToJson branch.1 (blockToJson branch.2)).depth <
          (Json.array (branchesToJson elseIfs)).depth := by
        rw [branchesToJson_eq]
        exact Json.depth_lt_array (List.mem_map_of_mem hb)
      have hfield : (Json.array (branchesToJson elseIfs)).depth <
          (ifElse condition body elseIfs otherwise).toJson.depth :=
        depth_lt_tagged rfl (by simp)
      omega
    · cases otherwise with
      | none => cases h
      | some block => exact depth_lt_body rfl (by simp [otherwiseToJson]) h
  | whileLoop condition body =>
    rw [children] at h
    exact depth_lt_body rfl (by simp) h
  | forLoop counter first last step body =>
    rw [children] at h
    exact depth_lt_body rfl (by simp) h
  | declareVariables | assign | output | declareArray | assignElement | swap | fill => cases h

theorem ofJsonWithin?_toJson {t : Statement} {n : Nat} (h : t.toJson.depth ≤ n) (nested : Bool) :
    ofJsonWithin? n nested t.toJson = some t := by
  induction t using induction_on_children generalizing n nested with
  | step t ih =>
    have hpos : 0 < t.toJson.depth := by
      cases t <;> exact Nat.succ_pos _
    obtain ⟨n, rfl⟩ : ∃ m, n = m + 1 := ⟨n - 1, by omega⟩
    refine ofJsonWithin?_of_children (fun u hu => ?_) nested
    have hd := depth_toJson_of_mem_children hu
    exact ih u hu (by omega) true

/-! ### What a statement is made of -/

section
variable {P : Json.Number → Prop}

theorem madeOf_tagged {kind : Kind} {values : List Json} (h : ∀ value ∈ values, value.MadeOf P) :
    (tagged kind values).MadeOf P := by
  refine Json.madeOf_record (List.forall_mem_cons.2 ⟨.string _, fun member hm => ?_⟩)
  exact h member.2 (List.of_mem_zip hm).2

theorem madeOf_block {block : List Statement} (h : ∀ u ∈ block, u.toJson.MadeOf P) :
    (Json.array (blockToJson block)).MadeOf P := by
  rw [blockToJson_eq]
  exact .array (List.forall_mem_map.2 h)

theorem madeOf_branch (condition : Condition) {body : List Statement}
    (h : ∀ u ∈ body, u.toJson.MadeOf P) :
    (branchToJson condition (blockToJson body)).MadeOf P := by
  refine Json.madeOf_record ?_
  simp [condition.madeOf_toJson, madeOf_block h]

theorem madeOf_branches {branches : List (Condition × List Statement)}
    (h : ∀ u ∈ branches.flatMap (·.2), u.toJson.MadeOf P) :
    (Json.array (branchesToJson branches)).MadeOf P := by
  rw [branchesToJson_eq]
  refine .array (List.forall_mem_map.2 fun branch hb => madeOf_branch branch.1 fun u hu => ?_)
  exact h u (List.mem_flatMap_of_mem hb hu)

theorem madeOf_otherwise {otherwise : Option (List Statement)}
    (h : ∀ u ∈ otherwise.getD [], u.toJson.MadeOf P) : (otherwiseToJson otherwise).MadeOf P := by
  cases otherwise with
  | none => exact .null
  | some body => exact madeOf_block h

/-- A statement is written with texts alone. -/
theorem madeOf_toJson (t : Statement) : t.toJson.MadeOf P := by
  induction t using induction_on_children with
  | step t ih =>
    cases t with
    | ifElse condition body elseIfs otherwise =>
      rw [children, List.forall_mem_append, List.forall_mem_append] at ih
      obtain ⟨hb, he, ho⟩ := ih
      refine madeOf_tagged ?_
      simp [condition.madeOf_toJson, madeOf_block hb, madeOf_branches he, madeOf_otherwise ho]
    | whileLoop condition body =>
      rw [children] at ih
      refine madeOf_tagged ?_
      simp [condition.madeOf_toJson, madeOf_block ih]
    | forLoop counter first last step body =>
      rw [children] at ih
      refine madeOf_tagged ?_
      simp [madeOf_block ih]
    | declareVariables | assign | output | declareArray | assignElement | swap | fill =>
      refine madeOf_tagged ?_
      simp

end

/-- A statement is read back from its document where the document has enough room. -/
theorem ofJson?_toJson {t : Statement} {room : Nat} (h : t.toJson.depth ≤ room) :
    ofJson? room t.toJson = some t := by
  have hs : t.toJson.isSound := t.madeOf_toJson.isSound
  rw [ofJson?, if_pos ⟨hs, h⟩]
  exact ofJsonWithin?_toJson (Nat.le_refl _) false

theorem branchOfRoot?_toJson {condition : Condition} {body : List Statement} {room : Nat}
    (h : (branchToJson condition (blockToJson body)).depth ≤ room) :
    branchOfRoot? room (branchToJson condition (blockToJson body)) = some (condition, body) := by
  refine branchOfJson?_toJson fun u hu => ofJson?_toJson ?_
  have hu : u.toJson.depth + 1 < (branchToJson condition (blockToJson body)).depth :=
    depth_lt_branch hu
  omega

end Statement

/-! ## Programs and their settings -/

theorem Program.ofJson?_toJson {p : Program} {room : Nat} (h : p.toJson.depth ≤ room) :
    ofJson? room p.toJson = some p := by
  have hs : ∀ t ∈ p.statements, Statement.ofJson? (room - 1) t.toJson = some t := by
    intro t ht
    have hd : t.toJson.depth < p.toJson.depth := Statement.depth_lt_block ht
    exact Statement.ofJson?_toJson (by omega)
  rw [toJson, Statement.blockToJson_eq, ofJson?, mapM_map_eq_some hs]
  rfl

theorem Program.madeOf_toJson {P : Json.Number → Prop} (p : Program) : p.toJson.MadeOf P :=
  Statement.madeOf_block fun t _ => t.madeOf_toJson

theorem Config.ofJson?_toJson (c : Config) : ofJson? c.toJson = some c := by
  have hf : Json.fields? ["max_iterations"] c.toJson =
      some [some (.ofInt c.maxIterations.toNat)] :=
    Json.fields?_record [] [_] (by decide) rfl nofun
  have hn : (Json.Number.ofInt c.maxIterations.toNat).natural? = some c.maxIterations.toNat := by
    simp [Json.Number.natural?, Json.Number.ofInt]
  have hlt : c.maxIterations.toNat < UInt64.size := c.maxIterations.toNat_lt
  rw [ofJson?, hf]
  simp [Json.ofInt, hn, hlt]

theorem Config.madeOf_toJson (c : Config) : c.toJson.MadeOf Json.Number.IsInt := by
  refine Json.madeOf_record (List.forall_mem_singleton.2 ?_)
  exact .number ⟨_, rfl⟩

theorem ProgramFile.ofJson?_toJson {f : ProgramFile} {room : Nat} (h : f.toJson.depth ≤ room) :
    ofJson? room f.toJson = some f := by
  obtain ⟨config, program⟩ := f
  have hf : Json.fields? ["config", "statements"] (toJson ⟨config, program⟩) =
      some [some ((config.map Config.toJson).getD .null), some program.toJson] :=
    Json.fields?_record [] [_, _] (by decide) rfl nofun
  have hp : Program.ofJson? (room - 1) program.toJson = some program := by
    have hd : program.toJson.depth < (toJson ⟨config, program⟩).depth :=
      Json.depth_lt_record (List.mem_cons_of_mem _ (List.mem_singleton_self _))
    exact Program.ofJson?_toJson (by omega)
  rw [ofJson?, hf]
  cases config with
  | none => simp [hp]
  | some config =>
    change ((Config.ofJson? config.toJson).map some).bind _ = _
    simp [config.ofJson?_toJson, hp]

theorem ProgramFile.madeOf_toJson (f : ProgramFile) : f.toJson.MadeOf Json.Number.IsInt := by
  have hc : ((f.config.map Config.toJson).getD .null).MadeOf Json.Number.IsInt := by
    cases f.config with
    | none => exact .null
    | some config => exact config.madeOf_toJson
  refine Json.madeOf_record ?_
  simp [hc, f.program.madeOf_toJson]

/-! ## Texts -/

/-- Reads a text as a document, and the document as a value. -/
def Json.decode? {α : Type} (ofJson? : Json → Option α) (text : String) : Option α :=
  (Json.read? text).bind ofJson?

/-- From the text of a value an equal value is read, and it is written as the same text again. -/
def RoundTrips {α : Type} (encode : α → String) (decode? : String → Option α) (a : α) : Prop :=
  ∃ b, decode? (encode a) = some b ∧ b = a ∧ encode b = encode a

theorem roundTrips_of_ofJson? {α : Type} {toJson : α → Json} {ofJson? : Json → Option α} {a : α}
    (hm : (toJson a).MadeOf Json.Number.IsInt) (h : ofJson? (toJson a) = some a) :
    RoundTrips (fun a => (toJson a).compact) (Json.decode? ofJson?) a := by
  refine ⟨a, ?_, rfl, rfl⟩
  rw [Json.decode?, Json.read?_compact hm, Option.bind_some, h]

/-- Program files, programs, statements, conditions, further branches of a choice and settings are
read back from their texts as long as these nest no deeper than the limit, and a choice without a
last branch is not written as one whose last branch is empty. -/
theorem encode_roundTrips :
    (∀ f : ProgramFile, f.toJson.depth ≤ maxDepth →
      RoundTrips ProgramFile.encode ProgramFile.decode? f) ∧
    (∀ p : Program, p.toJson.depth ≤ maxDepth →
      RoundTrips (·.toJson.compact) (Json.decode? (Program.ofJson? maxDepth)) p) ∧
    (∀ t : Statement, t.toJson.depth ≤ maxDepth →
      RoundTrips (·.toJson.compact) (Json.decode? (Statement.ofJson? maxDepth)) t) ∧
    (∀ c : Condition, RoundTrips (·.toJson.compact) (Json.decode? Condition.ofJson?) c) ∧
    (∀ branch : Condition × List Statement,
      (Statement.branchToJson branch.1 (Statement.blockToJson branch.2)).depth ≤ maxDepth →
      RoundTrips (fun branch =>
          (Statement.branchToJson branch.1 (Statement.blockToJson branch.2)).compact)
        (Json.decode? (Statement.branchOfRoot? maxDepth)) branch) ∧
    (∀ c : Config, RoundTrips (·.toJson.compact) (Json.decode? Config.ofJson?) c) ∧
    ∀ condition body elseIfs,
      (Statement.ifElse condition body elseIfs none).toJson.compact ≠
        (Statement.ifElse condition body elseIfs (some [])).toJson.compact := by
  refine ⟨fun f h => ?_, fun p h => ?_, fun t h => ?_, fun c => ?_, fun branch h => ?_,
    fun c => ?_, fun condition body elseIfs h => ?_⟩
  · exact roundTrips_of_ofJson? f.madeOf_toJson (ProgramFile.ofJson?_toJson h)
  · exact roundTrips_of_ofJson? p.madeOf_toJson (Program.ofJson?_toJson h)
  · exact roundTrips_of_ofJson? t.madeOf_toJson (Statement.ofJson?_toJson h)
  · exact roundTrips_of_ofJson? c.madeOf_toJson c.ofJson?_toJson
  · exact roundTrips_of_ofJson?
      (Statement.madeOf_branch branch.1 fun u _ => u.madeOf_toJson)
      (Statement.branchOfRoot?_toJson h)
  · exact roundTrips_of_ofJson? c.madeOf_toJson c.ofJson?_toJson
  · -- The documents differ in one member, which is `null` in one of them only.
    have hj := Json.compact_injOn (Statement.madeOf_toJson _) (Statement.madeOf_toJson _) h
    simp [Statement.toJson, Statement.tagged, Statement.otherwiseToJson, Json.record,
      Statement.Kind.fields] at hj

/-- A program file with settings, with texts that have to be escaped and with choices that differ in
their last branch alone. -/
theorem encode_roundTrips_choices :
    let choice (otherwise : Option (List Statement)) : Statement :=
      .ifElse ⟨"\"é\"", "\\<", "😀\n"⟩ [.output "\u0001\t"] [(⟨"", "", ""⟩, [])] otherwise
    let file : ProgramFile :=
      ⟨some ⟨18446744073709551615⟩, ⟨[choice none, choice (some [])]⟩⟩
    file.toJson.depth = 6 ∧ ProgramFile.decode? file.encode = some file ∧
      (choice none).toJson.compact ≠ (choice (some [])).toJson.compact := by
  intro choice file
  have hd : file.toJson.depth = 6 := by decide +kernel
  obtain ⟨hf, -, -, -, -, -, hc⟩ := encode_roundTrips
  obtain ⟨b, hb, rfl, -⟩ := hf file (by rw [hd]; decide)
  exact ⟨hd, hb, hc _ _ _⟩

end BlockScript
