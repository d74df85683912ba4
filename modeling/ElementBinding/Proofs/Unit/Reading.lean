import ElementBinding.Proofs.Naming
import ElementBinding.Proofs.Scan
import ElementBinding.Proofs.Unit.Layout
import ElementBinding.UnitProgram

/-!
# Reading a unit back

A reader of the text of a unit finds its owner in the second line, and every field twice: in a line
of the constructor and in a line of the registration. So units of one text have the same owner and
the same fields.
-/
namespace ElementBinding
open ElementBinding.Text ElementBinding.Naming ElementBinding.Grammar

/-- Reads the integer that stands in front of the brackets that close a line. -/
def readClosed (closing line : List Char) : Option Int :=
  let digits := line.takeWhile (· ≠ ')')
  if line.drop digits.length = closing then (readInteger (String.ofList digits)).toOption else none

def readConstructorLine (line : List Char) : Option (String × Option String × Int) := do
  let line ← line.dropPrefix? "        target.".toList
  let name := line.takeWhile (· ≠ ' ')
  let line ← (line.drop name.length).dropPrefix? " = ".toList
  match line.dropPrefix? "cast(\"".toList with
  | some line =>
    let (type, line) ← readQuoted line
    let line ← line.dropPrefix? ", target.find_by_identifier(".toList
    return (String.ofList name, some (String.ofList type), ← readClosed "))".toList line)
  | none =>
    let line ← line.dropPrefix? "target.find_by_identifier(".toList
    return (String.ofList name, none, ← readClosed ")".toList line)

def readEntryLine (line : List Char) : Option (String × Int) := do
  let line ← line.dropPrefix? "    (\"".toList
  let (name, line) ← readQuoted line
  let line ← line.dropPrefix? ", ".toList
  return (String.ofList name, ← readClosed "),".toList line)

/-- The lines of a text behind the first that begins in some way, up to some line. -/
def linesBetween (opening closing text : List Char) : List (List Char) :=
  (((splitAt '\n' text).dropWhile fun line => !opening.isPrefixOf line).drop 1).takeWhile
    (· ≠ closing)

def constructorLines (text : List Char) : List (List Char) :=
  linesBetween "    def __init__(".toList [] text

def registrationLines (text : List Char) : List (List Char) :=
  linesBetween "register_binder(".toList "))".toList text

def readConstructor (text : List Char) : Option (List (String × Option String × Int)) :=
  (constructorLines text).mapM readConstructorLine

def readRegistration (text : List Char) : Option (List (String × Int)) :=
  (registrationLines text).mapM readEntryLine

def readOwner (text : List Char) : Option (String × String) := do
  let line ← (splitAt '\n' text)[1]?
  let name ← line.dropPrefix? "# owner: ".toList
  let leaf := (name.reverse.takeWhile (· ≠ '.')).reverse
  return (packageOf (String.ofList name), String.ofList leaf)

/-- What a unit holds of a field: its name, its type and its view identifier. -/
def Field.held (field : Field) : String × Option String × Int :=
  (field.name, field.type, field.viewId)

/-- A specification of the standard profile: its module is a dotted sequence of names, its owner and
its fields have names, the types of the fields are normal forms and their view identifiers can be
written. -/
structure Spec.Regular (spec : Spec) : Prop where
  module : ∀ part ∈ dottedParts spec.ownerModule, IsName part
  owner : IsName spec.ownerName
  binder : spec.binderName = spec.ownerName ++ Profile.standard.binderSuffix
  name : ∀ field ∈ spec.fields, IsName field.name
  type : ∀ field ∈ spec.fields, ∀ type, field.type = some type →
    ∃ raw, type = TypeHint.normalize raw
  short : spec.IsShort

/-- A text is read back as that of the specification. Each field has one line in the constructor and
one in the registration, and the two places agree. -/
structure Spec.ReadFrom (spec : Spec) (text : List Char) : Prop where
  owner : readOwner text = some (spec.ownerModule, spec.ownerName)
  assigned : readConstructor text = some (spec.fields.map Field.held)
  registered : readRegistration text =
    some (spec.fields.map fun field => (field.name, field.viewId))
  agree : readRegistration text =
    (readConstructor text).map (·.map fun (name, _, viewId) => (name, viewId))
  assignedAlone : List.Forall₂ (fun line field => readConstructorLine line = some field.held)
    (constructorLines text) spec.fields
  registeredAlone :
    List.Forall₂ (fun line field => readEntryLine line = some (field.name, field.viewId))
      (registrationLines text) spec.fields

private theorem dropPrefix?_append (start rest : List Char) :
    (start ++ rest).dropPrefix? start = some rest :=
  List.dropPrefix?_append_of_beq rest (beq_self_eq_true start)

theorem readQuoted_escaped (text rest : List Char) :
    readQuoted (text.flatMap escaped ++ '"' :: rest) = some (text, rest) := by
  induction text with
  | nil => rfl
  | cons c more ih =>
    rw [List.flatMap_cons, List.append_assoc]
    by_cases hslash : c = '\\'
    · subst hslash
      simp [escaped, readQuoted, ih]
    · by_cases hquote : c = '"'
      · subst hquote
        simp [escaped, readQuoted, ih]
      · simp [escaped, readQuoted, hslash, hquote, ih]

private theorem readClosed_decimalText {viewId : Int} (h : IsShort viewId) (closing : List Char) :
    readClosed (')' :: closing) ((decimalText viewId).toList ++ ')' :: closing) = some viewId := by
  have hclosing : ')' ∉ (decimalText viewId).toList := by
    intro hmem
    have hsign := sign_or_digit_of_mem_decimalText hmem
    simp at hsign
  unfold readClosed
  simp only [takeWhile_append hclosing, List.drop_left, if_true, String.ofList_toList,
    readInteger_decimalText h]
  rfl

private theorem toList_lookup (field : Field) (rest : List Char) :
    field.lookup.toList ++ rest =
      "target.find_by_identifier(".toList ++
        ((decimalText field.viewId).toList ++ ')' :: rest) := by
  unfold Field.lookup
  rw [String.toList_append, String.toList_append, List.append_assoc, List.append_assoc]
  rfl

private theorem toList_constructorLine (field : Field) : field.constructorLine.toList =
    "        target.".toList ++
      (field.name.toList ++ ' ' :: ('=' :: ' ' :: field.assigned.toList)) := by
  unfold Field.constructorLine
  rw [String.toList_append, String.toList_append, String.toList_append, List.append_assoc,
    List.append_assoc]
  rfl

private theorem readConstructorLine_eq {field : Field} (hname : IsName field.name)
    (hid : IsShort field.viewId) :
    readConstructorLine field.constructorLine.toList = some field.held := by
  have hspace : ' ' ∉ field.name.toList := hname.not_mem (by decide)
  have hrest : (' ' :: '=' :: ' ' :: field.assigned.toList).dropPrefix? " = ".toList =
    some field.assigned.toList := dropPrefix?_append [' ', '=', ' '] _
  unfold readConstructorLine
  rw [toList_constructorLine, dropPrefix?_append]
  simp only [Option.bind_eq_bind, Option.bind_some, takeWhile_append hspace, List.drop_left, hrest]
  unfold Field.held Field.assigned
  cases htype : field.type with
  | none =>
    -- A look-up does not begin like a cast.
    have huntyped : field.lookup.toList.dropPrefix? "cast(\"".toList = none := by
      rw [← List.append_nil field.lookup.toList, toList_lookup]
      rfl
    have hlookup : field.lookup.toList.dropPrefix? "target.find_by_identifier(".toList =
        some ((decimalText field.viewId).toList ++ [')']) := by
      rw [← List.append_nil field.lookup.toList, toList_lookup, dropPrefix?_append]
    have hclosed : readClosed ")".toList ((decimalText field.viewId).toList ++ [')']) =
      some field.viewId := readClosed_decimalText hid []
    simp only [huntyped, hlookup, Option.bind_some, hclosed, String.ofList_toList]
    rfl
  | some type =>
    have htyped : ("cast(" ++ quoteLiteral type ++ ", " ++ field.lookup ++ ")").toList =
        "cast(\"".toList ++ (type.toList.flatMap escaped ++ '"' ::
          (", target.find_by_identifier(".toList ++
            ((decimalText field.viewId).toList ++ "))".toList))) := by
      have hlookup : field.lookup.toList ++ ")".toList = _ := toList_lookup field [')']
      have hquote : "cast(\"".toList = "cast(".toList ++ ['"'] := rfl
      have hcomma : ", target.find_by_identifier(".toList =
        ", ".toList ++ "target.find_by_identifier(".toList := rfl
      rw [String.toList_append, String.toList_append, String.toList_append, String.toList_append,
        toList_quoteLiteral, List.append_assoc _ _ ")".toList, hlookup, hquote, hcomma]
      simp only [List.append_assoc, List.cons_append, List.nil_append]
      rfl
    have hcast := dropPrefix?_append "cast(\"".toList (type.toList.flatMap escaped ++ '"' ::
      (", target.find_by_identifier(".toList ++ ((decimalText field.viewId).toList ++ "))".toList)))
    have hclosed : readClosed "))".toList ((decimalText field.viewId).toList ++ "))".toList) =
      some field.viewId := readClosed_decimalText hid [')']
    rw [htyped]
    simp only [hcast, readQuoted_escaped, Option.bind_some, dropPrefix?_append, hclosed,
      String.ofList_toList]
    rfl

private theorem toList_entryLine (field : Field) : field.entryLine.toList =
    "    (\"".toList ++ (field.name.toList.flatMap escaped ++
      '"' :: (", ".toList ++ ((decimalText field.viewId).toList ++ "),".toList))) := by
  have hquote : "    (\"".toList = "    (".toList ++ ['"'] := rfl
  unfold Field.entryLine
  rw [String.toList_append, String.toList_append, String.toList_append, String.toList_append,
    toList_quoteLiteral, hquote]
  simp only [List.append_assoc, List.cons_append, List.nil_append]

private theorem readEntryLine_eq {field : Field} (hid : IsShort field.viewId) :
    readEntryLine field.entryLine.toList = some (field.name, field.viewId) := by
  have hclosed : readClosed "),".toList ((decimalText field.viewId).toList ++ "),".toList) =
    some field.viewId := readClosed_decimalText hid [',']
  unfold readEntryLine
  rw [toList_entryLine, dropPrefix?_append]
  simp only [Option.bind_eq_bind, Option.bind_some, readQuoted_escaped, dropPrefix?_append, hclosed,
    String.ofList_toList]
  rfl

/-- The module of a specification is a dotted sequence of names, and so it holds nothing but dots
and characters of names. -/
theorem not_mem_module {moduleName : String} (h : ∀ part ∈ dottedParts moduleName, IsName part)
    {c : Char} (hdot : c ≠ '.') (hc : isIdentifierRest c = false) : c ∉ moduleName.toList := by
  rw [← intercalate_dottedParts moduleName, String.toList_intercalate]
  refine not_mem_intercalate hdot fun part hpart => ?_
  obtain ⟨name, hname, rfl⟩ := List.mem_map.mp hpart
  exact (h name hname).not_mem hc

namespace Spec.Regular
variable {spec : Spec}

/-- A specification is without the characters that stand in no name, but for its dots and its
types. -/
theorem without (h : spec.Regular) {c : Char} (hdot : c ≠ '.') (hc : isIdentifierRest c = false)
    (htype : ∀ field ∈ spec.fields, ∀ type, field.type = some type → c ∉ type.toList) :
    spec.Without c where
  module := not_mem_module h.module hdot hc
  name := h.owner.not_mem hc
  binder := by
    have hsuffix : IsName Profile.standard.binderSuffix := by decide
    rw [h.binder, String.toList_append, List.mem_append, not_or]
    exact ⟨h.owner.not_mem hc, hsuffix.not_mem hc⟩
  field := fun field hfield => (h.name field hfield).not_mem hc
  type := htype

theorem without_lineEnd (h : spec.Regular) : spec.Without '\n' := by
  refine h.without (by decide) (by decide) fun field hfield type htype => ?_
  obtain ⟨raw, rfl⟩ := h.type field hfield type htype
  exact TypeHint.not_mem_normalize (by decide) (by decide) raw

private theorem splitAt_source (h : spec.Regular) :
    splitAt '\n' ("\n".intercalate spec.lines ++ "\n").toList =
      spec.lines.map String.toList ++ [[]] := by
  have hlines : spec.lines.map String.toList ≠ [] := by simp [lines]
  have hfree : ∀ line ∈ spec.lines.map String.toList, '\n' ∉ line := by
    intro line hline
    obtain ⟨text, htext, rfl⟩ := List.mem_map.mp hline
    exact h.without_lineEnd.not_mem_lines (by decide) text htext
  have hend : "\n".toList = ['\n'] := rfl
  rw [String.toList_append, String.toList_intercalate, hend, splitAt_append,
    splitAt_intercalate hlines hfree]
  rfl

end Spec.Regular

private theorem isPrefixOf_of_head? {c : Char} {line : List Char} (h : line.head? ≠ some c)
    (rest : List Char) : (c :: rest).isPrefixOf line = false := by
  cases line with
  | nil => rfl
  | cons d more =>
    have hne : c ≠ d := fun heq => h (by rw [heq]; rfl)
    simp [List.isPrefixOf, hne]

/-- How a line in front of the binder's class may begin. -/
private theorem head?_openingLines {spec : Spec} :
    ∀ line ∈ spec.openingLines, line.toList.head? ≠ some ' ' ∧ line.toList.head? ≠ some 'r' := by
  intro line hline
  simp only [Spec.openingLines, List.mem_append, List.mem_cons, List.not_mem_nil, or_false] at hline
  rcases hline with ((rfl | rfl) | htyped) | rfl | rfl | rfl | rfl | rfl
  · decide
  · simp
  · split at htyped
    · rcases List.mem_pair.mp htyped with rfl | rfl <;> decide
    · simp at htyped
  · decide
  · decide
  · simp
  · decide
  · decide

private theorem linesBetween_eq {opening closing text first : List Char}
    {before inside after : List (List Char)}
    (hlines : splitAt '\n' text = before ++ first :: (inside ++ closing :: after))
    (hbefore : ∀ line ∈ before, opening.isPrefixOf line = false) (hfirst : opening.isPrefixOf first)
    (hinside : ∀ line ∈ inside, line ≠ closing) : linesBetween opening closing text = inside := by
  unfold linesBetween
  rw [hlines, List.dropWhile_append_of_pos (by simpa using hbefore),
    List.dropWhile_cons_of_neg (by simp [hfirst]), List.drop_one, List.tail_cons,
    List.takeWhile_append_of_pos (by simpa using hinside), List.takeWhile_cons_of_neg (by simp),
    List.append_nil]

private theorem mapM_of_read {α β : Type} {read : α → Option β} {f : Field → β}
    {lines : List α} {fields : List Field}
    (h : List.Forall₂ (fun line field => read line = some (f field)) lines fields) :
    lines.mapM read = some (fields.map f) := by
  induction h with
  | nil => rfl
  | cons hread _ ih => rw [List.mapM_cons, hread, ih]; rfl

namespace Spec.Regular
variable {spec : Spec}

private theorem constructorLines_eq (h : spec.Regular) :
    constructorLines ("\n".intercalate spec.lines ++ "\n").toList =
      spec.fields.map fun field => field.constructorLine.toList := by
  have hlines : spec.lines.map String.toList ++ [[]] =
      (spec.openingLines ++ ["class " ++ spec.binderName ++ ":"]).map String.toList ++
        ("    def __init__(self, target: " ++ spec.ownerName ++ ") -> None:").toList ::
          ((spec.fields.map fun field => field.constructorLine.toList) ++ [] ::
            ([[], ("register_binder(" ++ spec.ownerName ++ ", " ++ spec.binderName ++ ", (").toList]
              ++ (spec.fields.map fun field => field.entryLine.toList) ++ ["))".toList, []])) := by
    unfold lines
    simp only [List.map_append, List.map_cons, List.map_nil, List.map_map, List.append_assoc,
      List.cons_append, List.nil_append]
    rfl
  have hstart : "    def __init__(".toList = ' ' :: "   def __init__(".toList := rfl
  refine linesBetween_eq (h.splitAt_source.trans hlines) ?_ ?_ ?_
  · intro line hline
    obtain ⟨text, htext, rfl⟩ := List.mem_map.mp hline
    rw [hstart]
    rcases List.mem_append.mp htext with htext | htext
    · exact isPrefixOf_of_head? (head?_openingLines text htext).1 _
    · obtain rfl := List.mem_singleton.mp htext
      exact isPrefixOf_of_head? (by simp) _
  · have hinit : "    def __init__(self, target: ".toList =
        "    def __init__(".toList ++ "self, target: ".toList := rfl
    rw [List.isPrefixOf_iff_prefix, String.toList_append, String.toList_append, hinit,
      List.append_assoc, List.append_assoc]
    exact List.prefix_append _ _
  · intro line hline
    obtain ⟨field, hfield, rfl⟩ := List.mem_map.mp hline
    rw [toList_constructorLine]
    exact List.cons_ne_nil _ _

private theorem registrationLines_eq (h : spec.Regular) :
    registrationLines ("\n".intercalate spec.lines ++ "\n").toList =
      spec.fields.map fun field => field.entryLine.toList := by
  have hlines : spec.lines.map String.toList ++ [[]] =
      ((spec.openingLines ++ ["class " ++ spec.binderName ++ ":",
        "    def __init__(self, target: " ++ spec.ownerName ++ ") -> None:"] ++
          spec.fields.map Field.constructorLine ++ ["", ""]).map String.toList) ++
        ("register_binder(" ++ spec.ownerName ++ ", " ++ spec.binderName ++ ", (").toList ::
          ((spec.fields.map fun field => field.entryLine.toList) ++ "))".toList :: [[]]) := by
    unfold lines
    simp only [List.map_append, List.map_cons, List.map_nil, List.map_map, List.append_assoc,
      List.cons_append, List.nil_append]
    rfl
  have hstart : "register_binder(".toList = 'r' :: "egister_binder(".toList := rfl
  refine linesBetween_eq (h.splitAt_source.trans hlines) ?_ ?_ ?_
  · intro line hline
    obtain ⟨text, htext, rfl⟩ := List.mem_map.mp hline
    rw [hstart]
    refine isPrefixOf_of_head? ?_ _
    simp only [List.mem_append, List.mem_cons, List.not_mem_nil, or_false, List.mem_map] at htext
    rcases htext with ((htext | rfl | rfl) | ⟨field, -, rfl⟩) | rfl | rfl
    · exact (head?_openingLines text htext).2
    · simp
    · simp
    · rw [toList_constructorLine]
      exact fun heq => by cases heq
    · simp
    · simp
  · rw [List.isPrefixOf_iff_prefix, String.toList_append, String.toList_append,
      String.toList_append, String.toList_append]
    simp only [List.append_assoc]
    exact List.prefix_append _ _
  · intro line hline
    obtain ⟨field, hfield, rfl⟩ := List.mem_map.mp hline
    rw [toList_entryLine]
    exact fun heq => by cases heq

private theorem readOwner_eq (h : spec.Regular) :
    readOwner ("\n".intercalate spec.lines ++ "\n").toList =
      some (spec.ownerModule, spec.ownerName) := by
  have hnonempty : spec.ownerModule ≠ "" := by
    intro hempty
    have hname := h.module "" (by rw [hempty]; decide)
    obtain ⟨first, rest, htext, -⟩ := hname.start
    simp at htext
  have hqualified : spec.ownerQualifiedName.toList =
      spec.ownerModule.toList ++ '.' :: spec.ownerName.toList := by
    have hname : spec.ownerQualifiedName = spec.ownerModule ++ "." ++ spec.ownerName :=
      if_neg hnonempty
    simp [hname]
  have hdot : '.' ∉ spec.ownerName.toList := h.owner.not_mem (by decide)
  have hleaf : (spec.ownerQualifiedName.toList.reverse.takeWhile (· ≠ '.')).reverse =
      spec.ownerName.toList := by
    rw [hqualified, List.reverse_append, List.reverse_cons, List.append_assoc,
      List.singleton_append,
      takeWhile_append (by simpa using hdot), List.reverse_reverse]
  have hpackage : packageOf spec.ownerQualifiedName = spec.ownerModule := by
    rw [← String.ofList_toList (s := spec.ownerQualifiedName), hqualified, packageOf_append hdot,
      String.ofList_toList]
  have hline : (splitAt '\n' ("\n".intercalate spec.lines ++ "\n").toList)[1]? =
      some ("# owner: ".toList ++ spec.ownerQualifiedName.toList) := by
    rw [h.splitAt_source, ← String.toList_append]
    rfl
  unfold readOwner
  rw [hline, Option.bind_eq_bind, Option.bind_some, dropPrefix?_append]
  simp only [Option.bind_some, hleaf, hpackage, String.ofList_toList]
  rfl

theorem readFrom (h : spec.Regular) :
    spec.ReadFrom ("\n".intercalate spec.lines ++ "\n").toList := by
  have hconstructor : List.Forall₂ (fun line field => readConstructorLine line = some field.held)
      (constructorLines ("\n".intercalate spec.lines ++ "\n").toList) spec.fields := by
    rw [h.constructorLines_eq, List.forall₂_map_left_iff]
    refine List.forall₂_same.mpr fun field hfield => ?_
    exact readConstructorLine_eq (h.name field hfield) (h.short field hfield)
  have hregistration :
      List.Forall₂ (fun line field => readEntryLine line = some (field.name, field.viewId))
        (registrationLines ("\n".intercalate spec.lines ++ "\n").toList) spec.fields := by
    rw [h.registrationLines_eq, List.forall₂_map_left_iff]
    exact List.forall₂_same.mpr fun field hfield => readEntryLine_eq (h.short field hfield)
  have hassigned := mapM_of_read hconstructor
  have hregistered := mapM_of_read hregistration
  refine ⟨h.readOwner_eq, hassigned, hregistered, ?_, hconstructor, hregistration⟩
  unfold readRegistration readConstructor
  rw [hassigned, hregistered, Option.map_some, List.map_map]
  rfl

end Spec.Regular

/-- A field of which nothing is known but what a unit holds. -/
private def Field.ofHeld (held : String × Option String × Int) : Field :=
  ⟨"", held.1, held.2.1, held.2.2, 0⟩

private theorem Spec.lines_congr {first second : Spec}
    (hmodule : first.ownerModule = second.ownerModule) (hname : first.ownerName = second.ownerName)
    (hbinder : first.binderName = second.binderName)
    (hheld : first.fields.map Field.held = second.fields.map Field.held) :
    first.lines = second.lines := by
  have hfields {α : Type} (f : Field → α) (hf : ∀ field, f field = f (.ofHeld field.held)) :
      first.fields.map f = second.fields.map f := by
    have hthrough (fields : List Field) :
        fields.map f = (fields.map Field.held).map (f ∘ Field.ofHeld) := by
      rw [List.map_map]
      exact List.map_congr_left fun field _ => hf field
    rw [hthrough, hthrough, hheld]
  have htyped : first.fields.any (·.type.isSome) = second.fields.any (·.type.isSome) := by
    have hmap := congrArg (List.any · id) (hfields (·.type.isSome) fun _ => rfl)
    simpa only [List.any_map, Function.id_comp] using hmap
  have hqualified : first.ownerQualifiedName = second.ownerQualifiedName := by
    unfold ownerQualifiedName
    rw [hmodule, hname]
  unfold lines openingLines
  rw [hmodule, hname, hbinder, hqualified, htyped, hfields Field.constructorLine fun _ => rfl,
    hfields Field.entryLine fun _ => rfl]

/-- The text of a unit tells the owner and the fields of its specification, and nothing else. -/
theorem Spec.render_lossless {first second : Spec} (hfirst : first.Regular)
    (hsecond : second.Regular) : ∃ unit other,
      first.render .standard = .ok unit ∧ second.render .standard = .ok other ∧
      (unit.source = other.source ↔ first.ownerModule = second.ownerModule ∧
        first.ownerName = second.ownerName ∧
        first.fields.map Field.held = second.fields.map Field.held) ∧
      first.ReadFrom unit.source.toList ∧ second.ReadFrom other.source.toList := by
  refine ⟨_, _, render_eq hfirst.short, render_eq hsecond.short, ⟨?_, ?_⟩,
    hfirst.readFrom, hsecond.readFrom⟩
  · intro hsource
    dsimp only at hsource
    have hread := hfirst.readFrom
    have hother := hsecond.readFrom
    rw [hsource] at hread
    have howner := Option.some.inj (hread.owner.symm.trans hother.owner)
    have hheld := Option.some.inj (hread.assigned.symm.trans hother.assigned)
    exact ⟨congrArg Prod.fst howner, congrArg Prod.snd howner, hheld⟩
  · rintro ⟨hmodule, hname, hheld⟩
    have hbinder : first.binderName = second.binderName := by
      rw [hfirst.binder, hsecond.binder, hname]
    simp only [lines_congr hmodule hname hbinder hheld]

private def typedSpec (type : Option String) : Spec :=
  ⟨"app.m", "A", "app.a_binding", "ABinding", [⟨"app.m.A", "f", type, 7, 1⟩]⟩

private theorem typedSpec_regular (type : Option String)
    (htype : ∀ text, type = some text → ∃ raw, text = TypeHint.normalize raw) :
    (typedSpec type).Regular where
  module := (by decide : ∀ part ∈ dottedParts "app.m", IsName part)
  owner := (by decide : IsName "A")
  binder := (by decide : "ABinding" = "A" ++ Profile.standard.binderSuffix)
  name := by
    intro field hfield
    obtain rfl := List.mem_singleton.mp hfield
    exact (by decide : IsName "f")
  type := by
    intro field hfield text htext
    obtain rfl := List.mem_singleton.mp hfield
    exact htype text htext
  short := by
    intro field hfield
    obtain rfl := List.mem_singleton.mp hfield
    exact (by decide : (decimalDigits 7).length ≤ digitLimit)

theorem Spec.render_lossless_sample : ∃ unit other,
    (typedSpec none).render .standard = .ok unit ∧
      (typedSpec (some "View")).render .standard = .ok other ∧ unit.source ≠ other.source := by
  have htyped : ∀ text, some "View" = some text → ∃ raw, text = TypeHint.normalize raw := by
    rintro text ⟨⟩
    exact ⟨"View", by decide⟩
  obtain ⟨unit, other, hunit, hother, hiff, -⟩ :=
    render_lossless (typedSpec_regular none (by simp)) (typedSpec_regular _ htyped)
  refine ⟨unit, other, hunit, hother, fun hsource => ?_⟩
  have hheld := (hiff.mp hsource).2.2
  simp [typedSpec, Field.held] at hheld

end ElementBinding
