import BlockScript.Proofs.Roles
import Mathlib.Data.List.Nodup
import Mathlib.Logic.Relation

/-!
# Program files that differ and read alike

`Edit` is one change to a document that nothing is to notice: other places for the members of an
object, a member that holds what its field is without it dropped or added, a further text, and such
changes inside of a member or an item. What may be changed depends on what is read, so an edit is
made in a role. A document that is edited again and again reads as it did (`decode_of_edits`).

A document in between may be deeper than a program file can be, so reading is followed with a reader
that has no limit (`Statement.read?`). One edit keeps what that reader reads (`Edit.agrees`), by
induction on where it is made, and it keeps a document sound (`Edit.isSound`).
-/

set_option autoImplicit false

namespace BlockScript

/-! ## Edits -/

namespace Role

/-- The fields that may be missing, with their roles and with the values that stand for no value. -/
def omissible : List (String × Role × Json) :=
  [("body", .body, .array []), ("else_ifs", .branches, .array []),
    ("otherwise", .otherwise, .null), ("step", .step, .ofString "1"), ("config", .config, .null),
    ("max_iterations", .count, .ofInt 1000)]

/-- The role of a member of an object in a role. What is no field is skipped. -/
def member (role : Role) (j : Json) (key : Option String) : Role :=
  match (role.fields j).find? fun f => key == some f.1 with
  | some f => f.2
  | none => .skipped

end Role

/-- A change to a document in a role that nothing is to notice. The kind of a statement counts as
one of its fields. -/
inductive Edit : Role → Json → Json → Prop
  | permute {role : Role} {members members' : List (Option String × Json)}
      (h : members.Perm members') : Edit role (.object members) (.object members')
  | drop {role r : Role} {name : String} {value : Json} {members : List (Option String × Json)}
      (h : (name, r, value) ∈ Role.omissible) :
      Edit role (.object ((some name, value) :: members)) (.object members)
  | add {role r : Role} {name : String} {value : Json} {members : List (Option String × Json)}
      (h : (name, r, value) ∈ Role.omissible) (hm : ∀ member ∈ members, member.1 ≠ some name) :
      Edit role (.object members) (.object ((some name, value) :: members))
  | extra {role : Role} {key text : String} {members : List (Option String × Json)}
      (hk : ∀ f ∈ role.fields (.object members), key ≠ f.1) :
      Edit role (.object members) (.object ((some key, .string (some text)) :: members))
  | member {role : Role} {key : Option String} {value value' : Json}
      {members : List (Option String × Json)}
      (h : Edit (role.member (.object ((key, value) :: members)) key) value value') :
      Edit role (.object ((key, value) :: members)) (.object ((key, value') :: members))
  | item {role : Role} {before after : List Json} {item item' : Json}
      (h : Edit (role.item (before ++ item :: after) before.length) item item') :
      Edit role (.array (before ++ item :: after)) (.array (before ++ item' :: after))

/-- A document that is sound stays sound. -/
theorem Edit.isSound {role : Role} {j j' : Json} (h : Edit role j j') (hj : j.isSound) :
    j'.isSound := by
  induction h with
  | permute h =>
    rw [Json.isSound, Json.isSoundMembers_iff] at hj ⊢
    exact fun member hm => hj member (h.mem_iff.2 hm)
  | drop h =>
    rw [Json.isSound, Json.isSoundMembers_iff] at hj ⊢
    exact fun member hm => hj member (List.mem_cons_of_mem _ hm)
  | add h hm =>
    have hv : ∀ d ∈ Role.omissible, d.2.2.isSound := by decide +kernel
    rw [Json.isSound, Json.isSoundMembers_iff] at hj ⊢
    exact List.forall_mem_cons.2 ⟨⟨rfl, hv _ h⟩, hj⟩
  | extra hk =>
    rw [Json.isSound, Json.isSoundMembers_iff] at hj ⊢
    exact List.forall_mem_cons.2 ⟨⟨rfl, by rw [Json.isSound]; rfl⟩, hj⟩
  | member h ih =>
    rw [Json.isSound, Json.isSoundMembers_iff, List.forall_mem_cons] at hj ⊢
    exact ⟨⟨hj.1.1, ih hj.1.2⟩, hj.2⟩
  | item h ih =>
    rw [Json.isSound, Json.isSoundItems_iff, List.forall_mem_append, List.forall_mem_cons] at hj ⊢
    exact ⟨hj.1, ih hj.2.1, hj.2.2⟩

/-! ## Looking up members and items -/

namespace Json

variable {name : String} {key : Option String} {value : Json}
  {members members' : List (Option String × Json)} {x : Option Json}

theorem member?_of_perm (h : members.Perm members') (name : String) :
    member? name members = member? name members' := by
  have hf := h.filter (·.1 == some name)
  rw [member?_eq, member?_eq]
  generalize members.filter (·.1 == some name) = found at hf
  generalize members'.filter (·.1 == some name) = found' at hf
  rcases found with _ | ⟨a, _ | ⟨b, rest⟩⟩
  · rw [List.nil_perm.1 hf]
  · rw [List.singleton_perm.1 hf]
  · have hl := hf.length_eq
    rcases found' with _ | ⟨c, _ | ⟨d, rest'⟩⟩
    · simp at hl
    · simp at hl
    · rfl

theorem member?_cons_of_ne (h : key ≠ some name) :
    member? name ((key, value) :: members) = member? name members := by
  have hf : ((key, value) :: members).filter (·.1 == some name) =
      members.filter (·.1 == some name) :=
    List.filter_cons_of_neg (by simpa using h)
  rw [member?_eq, hf, member?_eq]

/-- A member is found when no other has its name. -/
theorem member?_cons_self :
    member? name ((some name, value) :: members) = some x ↔
      member? name members = some none ∧ x = some value := by
  have hf : ((some name, value) :: members).filter (·.1 == some name) =
      (some name, value) :: members.filter (·.1 == some name) :=
    List.filter_cons_of_pos (by simp)
  rw [member?_eq, hf, member?_eq]
  cases members.filter (·.1 == some name) with
  | nil => simp [eq_comm]
  | cons m rest => cases rest <;> simp

theorem member?_eq_none (h : ∀ member ∈ members, member.1 ≠ some name) :
    member? name members = some none := by
  have hf : members.filter (·.1 == some name) = [] :=
    List.filter_eq_nil_iff.2 fun member hm => by simpa using h member hm
  rw [member?_eq, hf]

/-- Next to an item that is changed, the items are the same. -/
theorem getElem?_append_cons_of_ne {before after : List Json} {i : Nat} (h : i ≠ before.length)
    (item item' : Json) : (before ++ item :: after)[i]? = (before ++ item' :: after)[i]? := by
  rcases Nat.lt_or_gt_of_ne h with hlt | hgt
  · rw [List.getElem?_append_left hlt, List.getElem?_append_left hlt]
  · have hle : before.length ≤ i := Nat.le_of_lt hgt
    obtain ⟨k, hk⟩ : ∃ k, i - before.length = k + 1 := ⟨i - before.length - 1, by omega⟩
    rw [List.getElem?_append_right hle, List.getElem?_append_right hle, hk,
      List.getElem?_cons_succ, List.getElem?_cons_succ]

end Json

/-! ## Reading without a limit -/

namespace Statement

/-- Reads a statement, however deep it is. One that is in no other has to be sound. -/
def read? : (nested : Bool) → Json → Option Statement
  | true, j => deep? true j
  | false, j => if j.isSound then deep? false j else none

theorem carries_read? {nested : Bool} {j j' : Json} (hs : j.isSound → j'.isSound)
    (h : Carries (deep? nested j) (deep? nested j')) :
    Carries (read? nested j) (read? nested j') := by
  cases nested with
  | true => exact h
  | false =>
    intro t ht
    rw [read?] at ht ⊢
    split at ht
    · next hj => rw [if_pos (hs hj)]; exact h t ht
    · cases ht

/-- A statement is read as another when it has the same kind and its fields agree. -/
theorem carries_deep? {nested : Bool} {j j' : Json}
    (h : ∀ kind record, untag? nested j = some (kind, record) →
      ∃ record', untag? nested j' = some (kind, record') ∧
        Role.RecordsAgree read? read? kind.record record record') :
    Carries (deep? nested j) (deep? nested j') := by
  intro t ht
  obtain ⟨kind, record, xs, hu, hf, ht⟩ := deep?_eq_some_iff.1 ht
  obtain ⟨record', hu', hr⟩ := h kind record hu
  rw [Role.RecordsAgree, kind.map_fst_record, kind.map_snd_record] at hr
  obtain ⟨xs', hf', ha⟩ := hr xs hf
  exact deep?_eq_some_iff.2 ⟨kind, record', xs', hu', hf', ha.carries_ofFields? t ht⟩

theorem untag?_object {nested : Bool} {members : List (Option String × Json)} {kind : Kind}
    {record : Json} :
    untag? nested (.object members) = some (kind, record) ↔
      (∃ tag, Json.member? "kind" members = some (some tag) ∧
        Kind.ofJson? nested tag = some kind) ∧ record = .object members := by
  constructor
  · intro h
    obtain ⟨_, hm, hfound⟩ := Option.bind_eq_some_iff.1 h
    obtain ⟨tag, rfl, htag⟩ := Option.bind_eq_some_iff.1 hfound
    obtain ⟨_, hk, hkind⟩ := Option.bind_eq_some_iff.1 htag
    cases hkind
    exact ⟨⟨tag, hm, hk⟩, rfl⟩
  · rintro ⟨⟨tag, hm, hk⟩, rfl⟩
    simp [untag?, hm, hk]

theorem untag?_array {nested : Bool} {tag : Json} {items : List Json} {kind : Kind}
    {record : Json} :
    untag? nested (.array (tag :: items)) = some (kind, record) ↔
      Kind.ofJson? nested tag = some kind ∧ record = .array items := by
  constructor
  · intro h
    obtain ⟨_, hk, hkind⟩ := Option.bind_eq_some_iff.1 h
    cases hkind
    exact ⟨hk, rfl⟩
  · rintro ⟨hk, rfl⟩
    simp [untag?, hk]

end Statement

/-! ## An edit keeps what is read -/

namespace Role

open Statement (read?)

/-- Objects agree in a role when their fields do. -/
theorem agrees_object {role : Role} {members members' : List (Option String × Json)}
    (hs : (Json.object members).isSound → (Json.object members').isSound)
    (hk : (∀ member ∈ members, member.1.isSome) → ∀ member ∈ members', member.1.isSome)
    (h : ∀ f ∈ role.fields (.object members), ∀ x, Json.member? f.1 members = some x →
      ∃ x', Json.member? f.1 members' = some x' ∧ f.2.Agrees read? read? x x') :
    role.Agrees read? read? (some (.object members)) (some (.object members')) := by
  cases role with
  | file => exact (recordsAgree_object hk h).carries_file
  | config => exact (recordsAgree_object hk h).carries_config.map some
  | condition => exact (recordsAgree_object hk h).carries_condition
  | branch => exact (recordsAgree_object hk h).carries_branch
  | statement nested =>
    refine Statement.carries_read? hs (Statement.carries_deep? fun kind record hu => ?_)
    have hfields : (Role.statement nested).fields (.object members) =
        ("kind", .tag nested) :: kind.record := by
      rw [fields, hu]
    rw [hfields, List.forall_mem_cons] at h
    obtain ⟨⟨tag, hm, hkind⟩, rfl⟩ := Statement.untag?_object.1 hu
    obtain ⟨x', hm', htag⟩ := h.1 _ hm
    obtain ⟨tag', rfl, hkind'⟩ := Option.bind_eq_some_iff.1 (htag kind hkind)
    exact ⟨_, Statement.untag?_object.2 ⟨⟨tag', hm', hkind'⟩, rfl⟩, recordsAgree_object hk h.2⟩
  | count | program | tag | text | step | body | branches | otherwise => exact .none
  | skipped => trivial

theorem forall₂_of_getElem? {α : Type} {R : α → α → Prop} {as bs : List α}
    (hl : bs.length = as.length)
    (h : ∀ (i : Nat) (a b : α), as[i]? = some a → bs[i]? = some b → R a b) :
    List.Forall₂ R as bs := by
  refine List.forall₂_iff_get.2 ⟨hl.symm, fun i ha hb => h i _ _ ?_ ?_⟩
  · exact List.getElem?_eq_getElem ha
  · exact List.getElem?_eq_getElem hb

/-- The items of a record have the roles of its fields. -/
theorem item_of_fields {role : Role} {items : List Json} {i : Nat} {f : String × Role}
    (hf : (role.fields (.array items))[i]? = some f) : role.item items i = f.2 := by
  cases role with
  | program | body | otherwise | branches => cases hf
  | file | config | condition | branch | statement | count | tag | text | step | skipped =>
    simp only [item, hf]

/-- Arrays agree in a role when their items do. -/
theorem agrees_array {role : Role} {items items' : List Json}
    (hs : (Json.array items).isSound → (Json.array items').isSound)
    (hl : items'.length = items.length)
    (h : ∀ (i : Nat) (item item' : Json), items[i]? = some item → items'[i]? = some item' →
      (role.item items i).Agrees read? read? (some item) (some item')) :
    role.Agrees read? read? (some (.array items)) (some (.array items')) := by
  have hfields : ∀ (i : Nat) (f : String × Role) (item item' : Json),
      (role.fields (.array items))[i]? = some f → items[i]? = some item →
      items'[i]? = some item' → f.2.Agrees read? read? (some item) (some item') := by
    intro i f item item' hf hi hi'
    rw [← item_of_fields hf]
    exact h i item item' hi hi'
  cases role with
  | program => exact (Carries.mapM (forall₂_of_getElem? hl h)).map _
  | body => exact Carries.mapM (forall₂_of_getElem? hl h)
  | otherwise => exact (Carries.mapM (forall₂_of_getElem? hl h)).map _
  | branches => exact Carries.mapM (forall₂_of_getElem? hl h)
  | file => exact (recordsAgree_array hl hfields).carries_file
  | config => exact (recordsAgree_array hl hfields).carries_config.map some
  | condition => exact (recordsAgree_array hl hfields).carries_condition
  | branch => exact (recordsAgree_array hl hfields).carries_branch
  | statement nested =>
    refine Statement.carries_read? hs (Statement.carries_deep? fun kind record hu => ?_)
    match items, items' with
    | first :: items, first' :: items' =>
      rw [fields, hu] at hfields
      obtain ⟨hkind, rfl⟩ := Statement.untag?_array.1 hu
      have htag := hfields 0 _ first first' rfl rfl rfl
      refine ⟨.array items', Statement.untag?_array.2 ⟨htag kind hkind, rfl⟩, ?_⟩
      exact recordsAgree_array (Nat.succ.inj hl) fun i => hfields (i + 1)
  | count | tag | text | step => exact .none
  | skipped => trivial

theorem nodup_fields (role : Role) (j : Json) : ((role.fields j).map Prod.fst).Nodup := by
  cases role with
  | statement nested =>
    rw [fields, List.map_cons, List.nodup_cons]
    split
    · next kind _ _ =>
      rw [kind.map_fst_record]
      exact ⟨kind.tag_not_mem_fields, kind.nodup_fields⟩
    · simp
  | file | config | condition | branch =>
    rw [fields]
    decide +kernel
  | program | body | otherwise | branches | count | tag | text | step | skipped =>
    exact List.nodup_nil

/-- A field is edited in its role. -/
theorem member_of_mem {role : Role} {j : Json} {f : String × Role} (hf : f ∈ role.fields j) :
    role.member j (some f.1) = f.2 := by
  unfold member
  split
  · next f' hf' =>
    have hname : f.1 = f'.1 := by simpa using List.find?_some hf'
    rw [List.inj_on_of_nodup_map (role.nodup_fields j) hf (List.mem_of_find?_eq_some hf') hname]
  · next hnone =>
    have := List.find?_eq_none.1 hnone f hf
    simp at this

/-- The name of a field that may be missing tells its role. -/
def Regular (f : String × Role) : Prop :=
  ∀ d ∈ omissible.map fun d => (d.1, d.2.1), f.1 = d.1 → f.2 = d.2

instance (f : String × Role) : Decidable (Regular f) :=
  inferInstanceAs (Decidable (∀ d ∈ _, _))

theorem regular_of_mem_record (kind : Statement.Kind) : ∀ f ∈ kind.record, Regular f := by
  cases kind <;> decide +kernel

theorem regular_of_mem_fields {role : Role} {j : Json} : ∀ f ∈ role.fields j, Regular f := by
  cases role with
  | statement nested =>
    rw [fields, List.forall_mem_cons]
    refine ⟨?_, ?_⟩
    · cases nested <;> decide +kernel
    · split
      · exact regular_of_mem_record _
      · nofun
  | file | config | condition | branch =>
    rw [fields]
    decide +kernel
  | program | body | otherwise | branches | count | tag | text | step | skipped => nofun

/-- What stands for no value is read as no value is, and the other way round. -/
theorem agrees_omissible {name : String} {r : Role} {value : Json}
    (h : (name, r, value) ∈ omissible) :
    r.Agrees read? read? (some value) none ∧ r.Agrees read? read? none (some value) := by
  simp only [omissible, List.mem_cons, Prod.mk.injEq, List.not_mem_nil, or_false] at h
  rcases h with ⟨-, rfl, rfl⟩ | ⟨-, rfl, rfl⟩ | ⟨-, rfl, rfl⟩ | ⟨-, rfl, rfl⟩ | ⟨-, rfl, rfl⟩ |
    ⟨-, rfl, rfl⟩
  all_goals exact ⟨Carries.refl _, Carries.refl _⟩

theorem eq_of_omissible {role r : Role} {j value : Json} {f : String × Role}
    (hf : f ∈ role.fields j) (h : (f.1, r, value) ∈ omissible) : f.2 = r :=
  regular_of_mem_fields f hf (f.1, r) (List.mem_map_of_mem h) rfl

end Role

namespace Edit

open Statement (read?)

/-- An edited document is read as it was. -/
theorem agrees {role : Role} {j j' : Json} (h : Edit role j j') :
    role.Agrees read? read? (some j) (some j') := by
  induction h with
  | @permute role members members' h =>
    have he : Edit role (.object members) (.object members') := .permute h
    refine Role.agrees_object he.isSound (fun hk member hm => hk member (h.mem_iff.2 hm)) ?_
    intro f _ x hx
    rw [Json.member?_of_perm h] at hx
    exact ⟨x, hx, .refl f.2 x⟩
  | @drop role r name value members h =>
    have he : Edit role (.object ((some name, value) :: members)) (.object members) := .drop h
    refine Role.agrees_object he.isSound
      (fun hk member hm => hk member (List.mem_cons_of_mem _ hm)) fun f hf x hx => ?_
    by_cases hn : some name = some f.1
    · cases hn
      obtain ⟨hnone, rfl⟩ := Json.member?_cons_self.1 hx
      refine ⟨none, hnone, ?_⟩
      rw [Role.eq_of_omissible hf h]
      exact (Role.agrees_omissible h).1
    · rw [Json.member?_cons_of_ne hn] at hx
      exact ⟨x, hx, .refl f.2 x⟩
  | @add role r name value members h hm =>
    have he : Edit role (.object members) (.object ((some name, value) :: members)) := .add h hm
    refine Role.agrees_object he.isSound
      (fun hk => List.forall_mem_cons.2 ⟨rfl, hk⟩) fun f hf x hx => ?_
    by_cases hn : some name = some f.1
    · cases hn
      have hnone := Json.member?_eq_none hm
      cases hx.symm.trans hnone
      refine ⟨some value, Json.member?_cons_self.2 ⟨hnone, rfl⟩, ?_⟩
      rw [Role.eq_of_omissible hf h]
      exact (Role.agrees_omissible h).2
    · rw [Json.member?_cons_of_ne hn]
      exact ⟨x, hx, .refl f.2 x⟩
  | @extra role key text members hk =>
    have he : Edit role (.object members)
        (.object ((some key, .string (some text)) :: members)) := .extra hk
    refine Role.agrees_object he.isSound
      (fun hk => List.forall_mem_cons.2 ⟨rfl, hk⟩) fun f hf x hx => ?_
    rw [Json.member?_cons_of_ne fun hn => hk f hf (Option.some.inj hn)]
    exact ⟨x, hx, .refl f.2 x⟩
  | @member role key value value' members h ih =>
    have he : Edit role (.object ((key, value) :: members)) (.object ((key, value') :: members)) :=
      .member h
    refine Role.agrees_object he.isSound
      (fun hk => List.forall_mem_cons.2 (List.forall_mem_cons.1 hk)) fun f hf x hx => ?_
    by_cases hn : key = some f.1
    · subst hn
      obtain ⟨hnone, rfl⟩ := Json.member?_cons_self.1 hx
      refine ⟨some value', Json.member?_cons_self.2 ⟨hnone, rfl⟩, ?_⟩
      rwa [Role.member_of_mem hf] at ih
    · rw [Json.member?_cons_of_ne hn] at hx ⊢
      exact ⟨x, hx, .refl f.2 x⟩
  | @item role before after item item' h ih =>
    have he : Edit role (.array (before ++ item :: after)) (.array (before ++ item' :: after)) :=
      .item h
    refine Role.agrees_array he.isSound (by simp) fun i first first' hi hi' => ?_
    by_cases hb : i = before.length
    · subst hb
      simp only [List.getElem?_append_right (Nat.le_refl _), Nat.sub_self,
        List.getElem?_cons_zero, Option.some.injEq] at hi hi'
      subst hi hi'
      exact ih
    · rw [Json.getElem?_append_cons_of_ne hb item item', hi'] at hi
      cases hi
      exact .refl _ _

end Edit

/-! ## Program files -/

namespace Statement

/-- Reads a statement that may nest `room` deep, or one inside of another. -/
def readWithin? (room : Nat) : (nested : Bool) → Json → Option Statement
  | true, j => deep? true j
  | false, j => ofJson? room j

theorem carries_readWithin? (room : Nat) (nested : Bool) (j : Json) :
    Carries (readWithin? room nested j) (read? nested j) := by
  cases nested with
  | true => exact .refl _
  | false =>
    intro t ht
    rw [readWithin?, ofJson?] at ht
    split at ht
    · next h => rw [read?, if_pos h.1]; exact ht
    · cases ht

theorem carries_of_depth_le {room : Nat} (nested : Bool) {j : Json} (hd : j.depth ≤ room) :
    Carries (read? nested j) (readWithin? room nested j) := by
  cases nested with
  | true => exact .refl _
  | false =>
    intro t ht
    rw [read?] at ht
    split at ht
    · next h => rw [readWithin?, ofJson?, if_pos ⟨h, hd⟩]; exact ht
    · cases ht

end Statement

theorem ProgramFile.carries_of_edits {j j' : Json} (h : Relation.ReflTransGen (Edit .file) j j') :
    Carries (readWith? (Statement.read? false) j) (readWith? (Statement.read? false) j') := by
  induction h with
  | refl => exact .refl _
  | tail _ he ih => exact ih.trans he.agrees

/-- A program file whose document is edited any number of times is read as the same program with the
same settings, as long as its document nests no deeper than 127. -/
theorem decode_of_edits {text text' : String} {j j' : Json} {f : ProgramFile}
    (hj : Json.read? text = some j) (hj' : Json.read? text' = some j')
    (h : Relation.ReflTransGen (Edit .file) j j') (hd : j'.depth ≤ 127)
    (hf : ProgramFile.decode? text = some f) : ProgramFile.decode? text' = some f := by
  rw [ProgramFile.decode?, hj, Option.bind_some, ProgramFile.ofJson?_eq] at hf
  rw [ProgramFile.decode?, hj', Option.bind_some, ProgramFile.ofJson?_eq]
  have hlimit : Carries (ProgramFile.readWith? (Statement.ofJson? 125) j)
      (ProgramFile.readWith? (Statement.read? false) j) :=
    Role.carries_file (fun nested i _ => Statement.carries_readWithin? 125 nested i)
      (Nat.le_succ j.depth)
  have hlimit' : Carries (ProgramFile.readWith? (Statement.read? false) j')
      (ProgramFile.readWith? (Statement.ofJson? 125) j') :=
    Role.carries_file (d := 126)
      (fun nested i hi => Statement.carries_of_depth_le nested (Nat.le_of_lt_succ hi)) hd
  exact (hlimit.trans ((ProgramFile.carries_of_edits h).trans hlimit')) f hf

/-- A loop is read from its document without the settings and the body, with the kind behind the
condition and with a note. -/
theorem decode_of_edits_while :
    let condition : Condition := ⟨"i", "<", "3"⟩
    let file : ProgramFile := ⟨none, ⟨[.whileLoop condition []]⟩⟩
    let edited : Json := .record [("note", .ofString "three times"), ("statements",
      .array [.record [("condition", condition.toJson), ("kind", .ofString "while")]])]
    ProgramFile.decode? edited.compact = some file := by
  intro condition file edited
  have hd : file.toJson.depth ≤ maxDepth := by decide +kernel
  have hf : ProgramFile.decode? file.encode = some file := by
    rw [ProgramFile.decode?, ProgramFile.encode, Json.read?_compact file.madeOf_toJson]
    exact ProgramFile.ofJson?_toJson hd
  have hm : edited.MadeOf Json.Number.IsInt := by
    have hloop : (Json.record [("condition", condition.toJson),
        ("kind", .ofString "while")]).MadeOf Json.Number.IsInt := by
      refine Json.madeOf_record ?_
      simp [condition.madeOf_toJson]
    refine Json.madeOf_record ?_
    simp [Json.MadeOf.array, hloop]
  have hp := @List.reverse_perm _ [(some "body", Json.array []),
    (some "condition", condition.toJson), (some "kind", .ofString "while")]
  have hedits : Relation.ReflTransGen (Edit .file) file.toJson edited := by
    refine .head (@Edit.drop .file .config "config" _ _ (by simp [Role.omissible, file])) ?_
    refine .head (.member (@Edit.item _ [] _ _ _ (.permute hp))) ?_
    refine .head (.member (@Edit.item _ [] _ _ _ (.drop List.mem_cons_self))) ?_
    exact .single (@Edit.extra .file "note" "three times" _ (by decide +kernel))
  exact decode_of_edits (Json.read?_compact file.madeOf_toJson) (Json.read?_compact hm) hedits
    (by decide +kernel) hf

end BlockScript
