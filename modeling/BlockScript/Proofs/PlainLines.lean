import BlockScript.Report.Format
import BlockScript.Proofs.Items
import BlockScript.Proofs.WellFormed

/-!
# The lines of a plain report

A plain report is joined from parts that were joined from lines, and parts that show nothing are
left out. When every line shows something and none of them is broken (`Text.IsLine`), the report is
all lines joined (`joinWith_parts`), and splitting it at its line breaks gives them back.

Nothing in a report makes this so by itself. It holds of every state that a run reaches, since names
are spelled as names there and outputs are answers (`Program.isLine_of_mem_lines`).
-/

set_option autoImplicit false

namespace BlockScript

/-! ## Lines -/

namespace Text

/-- A text that shows something, all on one line. -/
structure IsLine (s : String) : Prop where
  shows : ∃ c ∈ s.toList, isBlank c = false
  unbroken : '\n' ∉ s.toList

theorem trim_ne_empty {s : String} {c : Char} (hm : c ∈ s.toList) (hc : isBlank c = false) :
    trim s ≠ "" := by
  intro he
  have hn : trimChars s.toList = [] := by
    rw [← String.toList_ofList (l := trimChars s.toList)]
    exact congrArg String.toList he
  obtain ⟨front, back, hs, hf, hb⟩ := exists_blanks_trimChars s.toList
  rw [hs, hn, List.nil_append] at hm
  rcases List.mem_append.1 hm with hm | hm
  · exact absurd (hf c hm) (by simp [hc])
  · exact absurd (hb c hm) (by simp [hc])

end Text

theorem joinWith_append {separator : String} {first second : List String} (hf : first ≠ [])
    (hs : second ≠ []) :
    joinWith separator (first ++ second) =
      joinWith separator first ++ separator ++ joinWith separator second :=
  String.intercalate_append_of_ne_nil hf hs

/-- What is joined from lines shows what its lines show. -/
theorem mem_joinWith {separator line : String} {lines : List String} {c : Char}
    (hl : line ∈ lines) (hc : c ∈ line.toList) : c ∈ (joinWith separator lines).toList := by
  obtain ⟨before, after, rfl⟩ := List.append_of_mem hl
  have hback : c ∈ (joinWith separator (line :: after)).toList := by
    cases after with
    | nil => simpa [joinWith] using hc
    | cons next after => simp [joinWith, hc]
  cases before with
  | nil => exact hback
  | cons first before =>
    rw [joinWith_append (List.cons_ne_nil first before) (List.cons_ne_nil line after)]
    simp [hback]

/-- What is joined has no characters but those of its parts and of the separator. -/
theorem mem_of_mem_joinWith {separator : String} {parts : List String} {c : Char}
    (h : c ∈ (joinWith separator parts).toList) :
    c ∈ separator.toList ∨ ∃ part ∈ parts, c ∈ part.toList := by
  induction parts with
  | nil => cases h
  | cons part parts ih =>
    cases parts with
    | nil => exact .inr ⟨part, List.mem_singleton_self part, by simpa [joinWith] using h⟩
    | cons next parts =>
      rw [← List.singleton_append, joinWith_append (List.cons_ne_nil _ _) (List.cons_ne_nil _ _),
        String.toList_append, String.toList_append] at h
      rcases List.mem_append.1 h with h | h
      · rcases List.mem_append.1 h with h | h
        · exact .inr ⟨part, List.mem_cons_self, by simpa [joinWith] using h⟩
        · exact .inl h
      · rcases ih h with h | ⟨other, ho, h⟩
        · exact .inl h
        · exact .inr ⟨other, List.mem_cons_of_mem part ho, h⟩

/-- Parts that are joined one after the other are joined at once. -/
theorem joinWith_flatten {separator : String} {parts : List (List String)}
    (h : ∀ part ∈ parts, part ≠ []) :
    joinWith separator (parts.map (joinWith separator)) = joinWith separator parts.flatten := by
  induction parts with
  | nil => rfl
  | cons part parts ih =>
    obtain ⟨hpart, hparts⟩ := List.forall_mem_cons.1 h
    cases parts with
    | nil => simp [joinWith]
    | cons next parts =>
      have hnext : (next :: parts).flatten ≠ [] := by
        simp [List.forall_mem_cons.1 hparts]
      have hmap : (next :: parts).map (joinWith separator) ≠ [] := List.cons_ne_nil _ _
      rw [List.flatten_cons, joinWith_append hpart hnext, ← ih hparts, List.map_cons,
        ← List.singleton_append, joinWith_append (List.cons_ne_nil _ _) hmap]
      simp [joinWith]

/-- The parts that are left out are those without lines, so that no line is lost. -/
theorem joinWith_parts {parts : List (List String)}
    (h : ∀ part ∈ parts, ∀ line ∈ part, Text.IsLine line) :
    joinWith "\n" ((parts.map (joinWith "\n")).filter fun part => Text.trim part != "") =
      joinWith "\n" parts.flatten := by
  have hfilter : (parts.map (joinWith "\n")).filter (fun part => Text.trim part != "") =
      (parts.filter (· ≠ [])).map (joinWith "\n") := by
    rw [List.filter_map]
    congr 1
    refine List.filter_congr fun part hp => ?_
    cases part with
    | nil => rfl
    | cons line lines =>
      have hl : line ∈ line :: lines := List.mem_cons_self
      obtain ⟨c, hm, hc⟩ := (h _ hp line hl).shows
      have hshows : Text.trim (joinWith "\n" (line :: lines)) ≠ "" :=
        Text.trim_ne_empty (mem_joinWith hl hm) hc
      simp [hshows]
  rw [hfilter, joinWith_flatten fun part hp => by simpa using (List.mem_filter.1 hp).2,
    List.flatten_filter_ne_nil]

/-! ## Characters of lines -/

/-- A value is written with digits and a sign. -/
theorem Value.isDigit_or_of_mem_text {v : Value} {c : Char} (h : c ∈ v.text.toList) :
    c.isDigit ∨ c = '-' := by
  have digits : ∀ n, c ∈ (String.ofList (Nat.toDigits 10 n)).toList → c.isDigit := by
    intro n hn
    rw [String.toList_ofList] at hn
    exact Nat.isDigit_of_mem_toDigits (by decide) (by decide) hn
  unfold text at h
  cases hv : v.toInt with
  | ofNat n =>
    rw [hv] at h
    exact .inl (digits n h)
  | negSucc n =>
    rw [hv, show toString (Int.negSucc n) = "-" ++ String.ofList (Nat.toDigits 10 (n + 1)) from rfl,
      String.toList_append] at h
    rcases List.mem_append.1 h with h | h
    · exact .inr (by simpa using h)
    · exact .inl (digits (n + 1) h)

theorem Value.newline_not_mem_text (v : Value) : '\n' ∉ v.text.toList := by
  intro h
  rcases isDigit_or_of_mem_text h with hd | hd <;> exact absurd hd (by decide)

theorem Text.newline_not_mem_of_isName {name : String} (h : isName name) : '\n' ∉ name.toList := by
  unfold isName at h
  cases hs : name.toList with
  | nil => exact List.not_mem_nil
  | cons c cs =>
    rw [hs, isNameChars, Bool.and_eq_true, List.all_eq_true] at h
    rintro (_ | ⟨_, hm⟩)
    · exact absurd h.1 (by decide)
    · exact absurd (h.2 _ hm) (by decide)

theorem newline_not_mem_showElements (elements : Array Value) :
    '\n' ∉ (showElements elements).toList := by
  have hlist : '\n' ∉ (joinWith ", " (elements.toList.map Value.text)).toList := by
    intro h
    rcases mem_of_mem_joinWith h with h | ⟨part, hp, h⟩
    · exact absurd h (by decide)
    · obtain ⟨v, -, rfl⟩ := List.mem_map.1 hp
      exact v.newline_not_mem_text h
  simp [showElements, hlist]

/-- Every line of a report has the sign `=` in it, which is not blank. -/
theorem isLine_of_sides {left right : String} (hl : '\n' ∉ left.toList) (hr : '\n' ∉ right.toList) :
    Text.IsLine (left ++ " = " ++ right) where
  shows := ⟨'=', by simp, by decide⟩
  unbroken := by simp [hl, hr]

/-! ## States -/

/-- One line for every variable, then one for every array, then the outputs. -/
def State.lines (s : State) : List String :=
  s.vars.entries.map (fun entry => entry.1 ++ " = " ++ toString entry.2.toInt) ++
    s.arrays.entries.map (fun entry => entry.1 ++ " = [" ++
      ", ".intercalate (entry.2.toList.map fun v => toString v.toInt) ++ "]") ++
    s.outputs.toList

theorem State.lines_eq (s : State) :
    s.lines = s.vars.entries.map variableLine ++
      (s.arrays.entries.map arrayLine ++ s.outputs.toList) := by
  have harray : ∀ entry : String × Array Value,
      entry.1 ++ " = [" ++ ", ".intercalate (entry.2.toList.map fun v => toString v.toInt) ++ "]" =
        arrayLine entry := by
    intro entry
    rw [arrayLine, showElements, show " = [" = " = " ++ "[" from rfl]
    simp only [String.append_assoc]
    rfl
  rw [lines, List.append_assoc, List.map_congr_left fun entry _ => harray entry]
  rfl

/-- When all lines are lines, the report is nothing but its lines. -/
theorem State.plain_eq {s : State} (h : ∀ line ∈ s.lines, Text.IsLine line) :
    s.plain = joinWith "\n" s.lines := by
  rw [s.lines_eq] at h ⊢
  obtain ⟨hvars, hrest⟩ := List.forall_mem_append.1 h
  obtain ⟨harrays, houtputs⟩ := List.forall_mem_append.1 hrest
  have hall : ∀ part ∈ [s.vars.entries.map variableLine, s.arrays.entries.map arrayLine,
      s.outputs.toList], ∀ line ∈ part, Text.IsLine line :=
    List.forall_mem_cons.2 ⟨hvars, List.forall_mem_cons.2
      ⟨harrays, List.forall_mem_singleton.2 houtputs⟩⟩
  have hparts := joinWith_parts hall
  simp only [List.flatten_cons, List.flatten_nil, List.append_nil] at hparts
  exact hparts

/-! ## Runs -/

namespace Program

variable (ceiling : Nat) (p : Program)

theorem extends_run : State.empty.Extends (p.run ceiling).state := by
  rw [run, execute, state_runFrom]
  exact Statement.execBlock_of_parts law_extends p.statements (fun t _ => t.obeys_extends) .empty

theorem exists_wellFormed_run : ∃ bound, (p.run ceiling).state.WellFormed bound := by
  refine ⟨max State.maxArrayLength (longestFill [p]), ?_⟩
  refine wellFormed_execute (Nat.le_max_left _ _) (fun name values h => ?_) ceiling (.empty _)
  exact Nat.le_trans (le_longestFill (List.mem_singleton_self p) h) (Nat.le_max_right _ _)

/-- The names in a report are names, and its outputs are answers. -/
theorem isLine_of_mem_lines : ∀ line ∈ (p.run ceiling).state.lines, Text.IsLine line := by
  obtain ⟨bound, hw⟩ := p.exists_wellFormed_run ceiling
  obtain ⟨values, ho⟩ := (p.extends_run ceiling).outputs
  intro line hl
  rw [State.lines_eq] at hl
  rcases List.mem_append.1 hl with hl | hl
  · obtain ⟨entry, he, rfl⟩ := List.mem_map.1 hl
    have hn : Text.isName entry.1 := hw.vars.named entry.1 (List.mem_map_of_mem he)
    exact isLine_of_sides (Text.newline_not_mem_of_isName hn) entry.2.newline_not_mem_text
  rcases List.mem_append.1 hl with hl | hl
  · obtain ⟨entry, he, rfl⟩ := List.mem_map.1 hl
    have hn : Text.isName entry.1 := hw.arrays.named entry.1 (List.mem_map_of_mem he)
    exact isLine_of_sides (Text.newline_not_mem_of_isName hn) (newline_not_mem_showElements entry.2)
  · rw [ho] at hl
    obtain ⟨v, -, rfl⟩ := List.mem_map.1 (show line ∈ values.map _ from hl)
    exact @isLine_of_sides "answer" v.text (by decide) v.newline_not_mem_text

end Program

/-- Split at its line breaks, the plain report of a run that leaves anything is one line for every
variable, then one for every array, then the outputs, in the order of the report, and none of these
is blank. The report of a run that leaves nothing is empty. -/
theorem plain_report_lines (ceiling : Nat) (p : Program) :
    ((p.run ceiling).state.lines ≠ [] →
      ((Format.basic.body (p.run ceiling)).split '\n').toList.map (·.copy) =
        (p.run ceiling).state.lines) ∧
    (∀ line ∈ (p.run ceiling).state.lines, Text.trim line ≠ "") ∧
    ((p.run ceiling).state.lines = [] → Format.basic.body (p.run ceiling) = "") := by
  have hlines := p.isLine_of_mem_lines ceiling
  have hbody : Format.basic.body (p.run ceiling) = joinWith "\n" (p.run ceiling).state.lines :=
    State.plain_eq hlines
  refine ⟨fun hne => ?_, fun line hl => ?_, fun he => ?_⟩
  · have hs := @String.toList_split_intercalate '\n' (p.run ceiling).state.lines
      fun line hl => (hlines line hl).unbroken
    rw [if_neg hne] at hs
    rw [hbody]
    exact hs
  · obtain ⟨c, hm, hc⟩ := (hlines line hl).shows
    exact Text.trim_ne_empty hm hc
  · rw [hbody, he]
    rfl

/-- A run that fails in its third statement, without variables: an array and an answer are left. A
program without statements leaves nothing. -/
theorem plain_report_lines_failing :
    let p : Program := ⟨[.declareArray "a" "3", .output "1 - 4", .output "a[3]"]⟩
    (p.run 5).state.lines = ["a = [0, 0, 0]", "answer = -3"] ∧
      ((Format.basic.body (p.run 5)).split '\n').toList.map (·.copy) =
        ["a = [0, 0, 0]", "answer = -3"] ∧
      Text.trim "answer = -3" ≠ "" ∧ (Program.empty.run 5).state.lines = [] ∧
      Format.basic.body (Program.empty.run 5) = "" := by
  intro p
  have hl : (p.run 5).state.lines = ["a = [0, 0, 0]", "answer = -3"] := by decide +kernel
  have hs := plain_report_lines 5 p
  rw [hl] at hs
  obtain ⟨hsplit, hshows, -⟩ := hs
  refine ⟨hl, hsplit (by decide), hshows "answer = -3" (by decide), rfl, ?_⟩
  exact (plain_report_lines 5 .empty).2.2 rfl

end BlockScript
