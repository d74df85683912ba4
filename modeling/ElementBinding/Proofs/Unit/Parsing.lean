import ElementBinding.Proofs.Grammar.Blocks
import ElementBinding.Proofs.Unit.Reading

/-!
# Units are modules

A unit is read as the statements it is made of: imports, the class of the binder with the
constructor in it, and the call that registers it. This takes that names stand where it writes
names, and that what it quotes has no line end. The syntax tree is told up to the lines and the
source texts in it.
-/
namespace ElementBinding
open ElementBinding.Text ElementBinding.Naming ElementBinding.Grammar

/-- The texts of a specification can stand where its unit has them: it has fields, its names are not
reserved, and its types hold no null character. -/
structure Spec.Writable (spec : Spec) : Prop extends spec.Regular where
  freeModule : ∀ part ∈ dottedParts spec.ownerModule, isReserved part = false
  freeOwner : isReserved spec.ownerName = false
  nonempty : spec.fields ≠ []
  freeName : ∀ field ∈ spec.fields, isReserved field.name = false
  nullFree : ∀ field ∈ spec.fields, ∀ type, field.type = some type → ∀ c ∈ type.toList, c.toNat ≠ 0

/-- What a number is read as: the sign of a negative one is an operator. -/
def Grammar.Expr.ofInteger (value : Int) : Expr :=
  let magnitude := .integer (String.ofList (decimalDigits value.natAbs))
  if value < 0 then .unary "-" magnitude else magnitude

namespace Field
variable {field : Field}

def IsLookup (field : Field) : Expr → Prop :=
  Expr.IsCall (· = .attribute (.name "target") "find_by_identifier")
    [(· = .ofInteger field.viewId)]

def IsAssigned (field : Field) : Expr → Prop :=
  match field.type with
  | some type => Expr.IsCall (· = .name "cast") [(· = .string (quoteLiteral type) []),
      field.IsLookup]
  | none => field.IsLookup

def IsPopulated (field : Field) (statement : Stmt) : Prop :=
  ∃ assignment, statement = .assignment assignment ∧
    assignment.IsTo (· = .attribute (.name "target") field.name) field.IsAssigned

def IsEntry (field : Field) : Expr → Prop :=
  Expr.IsTuple [(· = .string (quoteLiteral field.name) []), (· = .ofInteger field.viewId)]

private theorem number_passes (value : Int) :
    Passes 1 (· = .ofInteger value) (decimalText value).toList := by
  have hne := decimalDigits_ne_nil value.natAbs
  have hdigits := fun c (hc : c ∈ decimalDigits value.natAbs) => isDigit_of_mem_decimalDigits hc
  rw [decimalText, String.toList_ofList, Expr.ofInteger]
  split
  · exact .negative hne hdigits
  · exact (Passes.integer hne hdigits).mono (Nat.zero_le 1)

private theorem lookup_passes : Passes 2 field.IsLookup field.lookup.toList := by
  have hobject : IsFreeName "target" := by decide
  have hmethod : IsFreeName "find_by_identifier" := by decide
  have hopening : "target.find_by_identifier(".toList =
      "target".toList ++ '.' :: ("find_by_identifier".toList ++ ['(']) := rfl
  have hclosing : ")".toList = furtherText [] [] := rfl
  have htext : field.lookup.toList = "target".toList ++ '.' :: ("find_by_identifier".toList ++
      '(' :: ((decimalText field.viewId).toList ++ furtherText [] [])) := by
    unfold Field.lookup
    simp only [String.toList_append, hopening, hclosing, List.append_assoc, List.cons_append,
      List.nil_append]
  rw [htext]
  exact .method (number_passes field.viewId) .nil hobject hmethod

private theorem assigned_passes (htype : ∀ type, field.type = some type → '\n' ∉ type.toList) :
    Passes 3 field.IsAssigned field.assigned.toList := by
  unfold assigned IsAssigned
  cases hfield : field.type with
  | none => exact lookup_passes.mono (by decide)
  | some type =>
    dsimp only
    have hname : IsFreeName "cast" := by decide
    have hopening : "cast(".toList = "cast".toList ++ ['('] := rfl
    have hcomma : ", ".toList = [',', ' '] := rfl
    have hclosing : ")".toList = [')'] := rfl
    have htext : ("cast(" ++ quoteLiteral type ++ ", " ++ field.lookup ++ ")").toList =
        "cast".toList ++ '(' :: ((quoteLiteral type).toList ++
          furtherText [field.lookup.toList] []) := by
      simp only [furtherText, String.toList_append, hopening, hcomma, hclosing, List.append_assoc,
        List.flatMap_cons, List.flatMap_nil, List.cons_append, List.nil_append, List.append_nil]
    have hquoted := (Passes.string (htype type hfield)).mono (Nat.zero_le 2)
    rw [htext]
    exact .call hquoted (.cons lookup_passes .nil) hname

def constructorText (field : Field) : List Char :=
  "target".toList ++ (('.' :: field.name.toList) ++ ' ' :: '=' :: ' ' :: field.assigned.toList)

private theorem constructorText_stated (hname : IsFreeName field.name)
    (htype : ∀ type, field.type = some type → '\n' ∉ type.toList) (indents : List Nat) :
    Says 5 indents field.IsPopulated field.constructorText := by
  have htarget : IsFreeName "target" := by decide
  have hplain : IsPlainName "target" := by decide
  have hmember : Spells 3 (· = .attribute (.name "target") field.name)
      ("target".toList ++ '.' :: field.name.toList) := by
    exact .primary htarget (fun _ _ => rfl) fun whole n _ after indents rest hstops =>
      .member hname hstops.isCut (fun _ hobject => hobject ▸ rfl) (.none hstops)
  exact .assignment hplain (fun _ _ => rfl) hmember (fun _ he => he ▸ rfl)
    (assigned_passes htype).spells indents

def entryText (field : Field) : List Char :=
  '(' :: ((quoteLiteral field.name).toList ++ ',' :: ' ' ::
    ((decimalText field.viewId).toList ++ [')']))

private theorem entryText_spells (hname : IsFreeName field.name) :
    Spells 2 field.IsEntry field.entryText := by
  have hstring := (Passes.string (hname.not_mem (c := '\n') (by decide))).mono (Nat.zero_le 1)
  have hnumber := number_passes field.viewId
  have hnext (rest : List Char) : Items (Spells 1) rest [(· = .ofInteger field.viewId)]
      (' ' :: ((decimalText field.viewId).toList ++ [')']) ++ rest) := by
    refine .last hnumber.spells ?_
    rw [List.cons_append, List.append_assoc]
    exact .space (hnumber.leads .bracket _)
  refine .tuple hstring.spells (fun rest => ?_) hnext
  rw [List.append_assoc]
  exact hstring.leads .bracket _

end Field

/-- The fields of a registration, in brackets. -/
def entriesText (fields : List Field) : List Char :=
  '(' :: blockText 4 (fields.map fun field => field.entryText ++ [',']) ['\n', ')']

private theorem items_entries {fields : List Field}
    (hname : ∀ field ∈ fields, IsFreeName field.name)
    (rest : List Char) : Items (Spells 2) rest (fields.map Field.IsEntry)
      (blockText 4 (fields.map fun field => field.entryText ++ [',']) ['\n', ')'] ++ rest) := by
  rw [blockText_append]
  induction fields with
  | nil => exact .close (.line rfl (.here rfl))
  | cons field more ih =>
    have hfield := Field.entryText_spells (hname field List.mem_cons_self)
    have hmore := ih fun other hother => hname other (List.mem_cons_of_mem _ hother)
    rw [List.map_cons, List.map_cons, blockText_cons, List.append_assoc]
    exact .more hfield (.indented 4 rfl _) hmore

private theorem entriesText_spells {fields : List Field} (hnonempty : fields ≠ [])
    (hname : ∀ field ∈ fields, IsFreeName field.name) :
    Spells 3 (Expr.IsTuple (fields.map Field.IsEntry)) (entriesText fields) := by
  obtain ⟨field, more, rfl⟩ := List.exists_cons_of_ne_nil hnonempty
  have hfield := Field.entryText_spells (hname field List.mem_cons_self)
  have hmore := items_entries fun other hother => hname other (List.mem_cons_of_mem field hother)
  refine .tuple hfield (fun rest => ?_) hmore
  rw [List.map_cons, blockText_cons]
  simp only [List.cons_append, List.append_assoc, List.nil_append]
  exact .indented 4 rfl _

namespace Spec

def IsRegistration (spec : Spec) : Expr → Prop :=
  Expr.IsCall (· = .name "register_binder")
    [(· = .name spec.ownerName), (· = .name spec.binderName),
      Expr.IsTuple (spec.fields.map Field.IsEntry)]

def IsConstructor (spec : Spec) : Stmt → Prop :=
  Stmt.IsFunction "__init__"
    [(· = .plain "self" none none), (· = .plain "target" (some spec.ownerName) none)]
    (spec.fields.map Field.IsPopulated)

def IsBinder (spec : Spec) : Stmt → Prop := Stmt.IsClass spec.binderName [spec.IsConstructor]

/-- The statement is the call that registers the binder. -/
def IsEntering (spec : Spec) (statement : Stmt) : Prop :=
  ∃ call, statement = .expression [call] ∧ spec.IsRegistration call

def imports (spec : Spec) : List Stmt :=
  (if spec.fields.any (·.type.isSome) then [.importFrom 0 ["typing"] [(["cast"], none)]] else []) ++
    [.importFrom 0 ["viewbind", "runtime", "registry"] [(["register_binder"], none)],
      .importFrom 0 (dottedParts spec.ownerModule) [([spec.ownerName], none)]]

def statementKinds (spec : Spec) : List (Stmt → Prop) :=
  spec.imports.map (fun statement => (· = statement)) ++ [spec.IsBinder, spec.IsEntering]

end Spec

def Spec.registrationText (spec : Spec) : List Char :=
  "register_binder".toList ++ '(' :: (spec.ownerName.toList ++
    furtherText [spec.binderName.toList, entriesText spec.fields] [])

def Spec.binderText (spec : Spec) : List Char :=
  classText spec.binderName 4 [functionText "__init__"
    ("self".toList ++ ',' :: ' ' :: (parameterText "target" (some spec.ownerName) ++ [')'])) 8
    (spec.fields.map Field.constructorText)]

namespace Spec.Writable
variable {spec : Spec}

private theorem isFreeName_part (h : spec.Writable) :
    ∀ part ∈ dottedParts spec.ownerModule, IsFreeName part :=
  fun part hpart => ⟨h.module part hpart, h.freeModule part hpart⟩

private theorem isFreeName_owner (h : spec.Writable) : IsFreeName spec.ownerName :=
  ⟨h.owner, h.freeOwner⟩

private theorem isFreeName_field (h : spec.Writable) :
    ∀ field ∈ spec.fields, IsFreeName field.name :=
  fun field hfield => ⟨h.name field hfield, h.freeName field hfield⟩

private theorem isFreeName_binder (h : spec.Writable) : IsFreeName spec.binderName := by
  have hsuffix : ∀ word ∈ reservedWords, ¬Profile.standard.binderSuffix.toList <:+ word.toList := by
    decide
  have hbinding : IsName Profile.standard.binderSuffix := by decide
  have hname : IsName spec.binderName := by
    obtain ⟨first, more, hfirst, hstart⟩ := h.owner.start
    rw [h.binder]
    refine ⟨⟨first, _, by rw [String.toList_append, hfirst, List.cons_append], hstart⟩,
      fun c hc => ?_⟩
    rw [String.toList_append] at hc
    rcases List.mem_append.mp hc with hc | hc
    · exact h.owner.rest c hc
    · exact hbinding.rest c hc
  refine ⟨hname, ?_⟩
  rw [isReserved, List.contains_eq_mem, decide_eq_false_iff_not]
  intro hmem
  refine hsuffix _ hmem ?_
  rw [h.binder, String.toList_append]
  exact List.suffix_append _ _

private theorem registrationText_stated (h : spec.Writable) (indents : List Nat) :
    Says 5 indents spec.IsEntering spec.registrationText := by
  have hname : IsFreeName "register_binder" := by decide
  have hplain : IsPlainName "register_binder" := by decide
  have hentries := entriesText_spells h.nonempty h.isFreeName_field
  have howner := (Passes.name h.isFreeName_owner).mono (by decide : 0 ≤ 3)
  have hbinder := (Passes.name h.isFreeName_binder).mono (by decide : 0 ≤ 3)
  have hcall := Passes.call howner (.cons hbinder (.cons (.bracketed hentries) .nil)) hname
  exact .expression hplain (fun _ _ => rfl) hcall.spells indents

private theorem binderText_stated (h : spec.Writable) :
    Says 7 [] spec.IsBinder spec.binderText := by
  have hpopulated : List.Forall₂ (Says 5 [8, 4]) (spec.fields.map Field.IsPopulated)
      (spec.fields.map Field.constructorText) := by
    rw [List.forall₂_map_left_iff, List.forall₂_map_right_iff]
    refine List.forall₂_same.mpr fun field hfield => ?_
    exact field.constructorText_stated (h.isFreeName_field field hfield)
      (h.without_lineEnd.type field hfield) _
  have hparameters (rest : List Char) : Items IsParameter rest
      [(· = .plain "self" none none), (· = .plain "target" (some spec.ownerName) none)]
      ("self".toList ++ ',' :: ' ' :: (parameterText "target" (some spec.ownerName) ++ [')']) ++
        rest) := by
    have hself : IsFreeName "self" := by decide
    have htarget : IsFreeName "target" := by decide
    simp only [List.append_assoc, List.cons_append, List.nil_append]
    refine .more ⟨"self", none, hself, by simp, rfl, rfl⟩ (.name hself.toIsName _) ?_
    refine .last ⟨"target", some spec.ownerName, htarget, by simpa using h.isFreeName_owner, rfl,
      rfl⟩ (.space ?_)
    simp only [parameterText, List.append_assoc]
    exact .name htarget.toIsName _
  have hinit : IsFreeName "__init__" := by decide
  have hconstructor : Says 6 [4] spec.IsConstructor (functionText "__init__"
      ("self".toList ++ ',' :: ' ' :: (parameterText "target" (some spec.ownerName) ++ [')'])) 8
      (spec.fields.map Field.constructorText)) := by
    obtain ⟨field, more, hfields⟩ := List.exists_cons_of_ne_nil h.nonempty
    have htexts : spec.fields.map Field.constructorText =
        field.constructorText :: more.map Field.constructorText := by rw [hfields, List.map_cons]
    rw [htexts] at hpopulated ⊢
    exact .function hinit hparameters hpopulated (by decide)
  exact .declaration h.isFreeName_binder (.cons hconstructor .nil) (by decide)

end Spec.Writable

private def furtherLines (lines : List String) : List Char :=
  lines.flatMap fun line => '\n' :: line.toList

private theorem furtherLines_nil : furtherLines [] = [] := rfl

private theorem furtherLines_cons (line : String) (more : List String) :
    furtherLines (line :: more) = '\n' :: (line.toList ++ furtherLines more) := by
  simp [furtherLines]

private theorem furtherLines_append (lines more : List String) :
    furtherLines (lines ++ more) = furtherLines lines ++ furtherLines more := by
  simp [furtherLines]

private theorem flatMap_lines (first : String) (more : List String) :
    ((first :: more).flatMap fun line => line.toList ++ ['\n']) =
      first.toList ++ (furtherLines more ++ ['\n']) := by
  induction more generalizing first with
  | nil => simp [furtherLines_nil]
  | cons second more ih =>
    rw [List.flatMap_cons, ih, furtherLines_cons]
    simp

private theorem constructorLine_indented (field : Field) :
    field.constructorLine.toList = List.replicate 8 ' ' ++ field.constructorText := by
  have hopening : "        target.".toList =
      List.replicate 8 ' ' ++ ("target".toList ++ ['.']) := rfl
  have hsign : " = ".toList = [' ', '=', ' '] := rfl
  unfold Field.constructorLine Field.constructorText
  simp only [String.toList_append, hopening, hsign, List.append_assoc, List.cons_append,
    List.nil_append]

private theorem entryLine_indented (field : Field) :
    field.entryLine.toList = List.replicate 4 ' ' ++ (field.entryText ++ [',']) := by
  have hopening : "    (".toList = List.replicate 4 ' ' ++ ['('] := rfl
  have hcomma : ", ".toList = [',', ' '] := rfl
  have hclosing : "),".toList = [')', ','] := rfl
  unfold Field.entryLine Field.entryText
  simp only [String.toList_append, hopening, hcomma, hclosing, List.append_assoc, List.cons_append,
    List.nil_append]

private theorem furtherLines_map {indent : Nat} {line : Field → String} {text : Field → List Char}
    (h : ∀ field, (line field).toList = List.replicate indent ' ' ++ text field)
    (fields : List Field) (rest : List Char) :
    furtherLines (fields.map line) ++ rest = blockText indent (fields.map text) rest := by
  unfold furtherLines blockText
  simp only [List.flatMap_map, h]

namespace Spec
variable {spec : Spec}

private theorem toList_importLine {first : String} {more : List String}
    (h : dottedParts spec.ownerModule = first :: more) :
    ("from " ++ spec.ownerModule ++ " import " ++ spec.ownerName).toList =
      importText first more spec.ownerName := by
  have hmodule : spec.ownerModule.toList = first.toList ++ partsText more := by
    have hdot : ".".toList = ['.'] := rfl
    rw [← intercalate_dottedParts spec.ownerModule, h, String.toList_intercalate, List.map_cons,
      hdot, intercalate_cons, List.flatMap_map]
    rfl
  have hopening : "from ".toList = "from".toList ++ [' '] := rfl
  have hkeyword : " import ".toList = ' ' :: ("import".toList ++ [' ']) := rfl
  simp only [String.toList_append, hmodule, hopening, hkeyword, importText, List.append_assoc,
    List.cons_append, List.nil_append]

private theorem toList_registrationLines (spec : Spec) :
    ("register_binder(" ++ spec.ownerName ++ ", " ++ spec.binderName ++ ", (").toList ++
      (furtherLines (spec.fields.map Field.entryLine) ++ furtherLines ["))"]) =
      spec.registrationText := by
  have hopening : "register_binder(".toList = "register_binder".toList ++ ['('] := rfl
  have hcomma : ", ".toList = [',', ' '] := rfl
  have hbracket : ", (".toList = [',', ' ', '('] := rfl
  have hclosing : furtherLines ["))"] = ['\n', ')', ')'] := rfl
  rw [furtherLines_map entryLine_indented, hclosing]
  unfold registrationText furtherText entriesText
  simp only [String.toList_append, List.append_assoc, List.cons_append, List.nil_append,
    List.flatMap_cons, List.flatMap_nil, blockText_append]
  rw [hopening, hcomma, hbracket]
  simp only [List.append_assoc, List.cons_append, List.nil_append]

private theorem toList_binderLines (spec : Spec) :
    ("class " ++ spec.binderName ++ ":").toList ++
      (furtherLines ["    def __init__(self, target: " ++ spec.ownerName ++ ") -> None:"] ++
        furtherLines (spec.fields.map Field.constructorLine)) = spec.binderText := by
  have hopening : "class ".toList = "class".toList ++ [' '] := rfl
  have hcolon : ":".toList = [':'] := rfl
  have hparameters : "    def __init__(self, target: ".toList = List.replicate 4 ' ' ++
      ("def".toList ++ ' ' :: ("__init__".toList ++ '(' :: ("self".toList ++ ',' :: ' ' ::
        ("target".toList ++ [':', ' '])))) := rfl
  have hresult : ") -> None:".toList =
      ')' :: ' ' :: '-' :: '>' :: ' ' :: ("None".toList ++ [':']) := rfl
  have hconstructor := furtherLines_map constructorLine_indented spec.fields []
  rw [List.append_nil] at hconstructor
  rw [hconstructor, furtherLines_cons, furtherLines_nil, List.append_nil]
  unfold binderText classText functionText parameterText
  simp only [String.toList_append, List.append_assoc, List.cons_append, List.nil_append,
    blockText_cons, blockText_append]
  rw [hopening, hcolon, hparameters, hresult]
  simp only [List.append_assoc, List.cons_append, List.nil_append, blockText, List.flatMap_nil]

private def statementLines (spec : Spec) : List String :=
  ["from viewbind.runtime.registry import register_binder", "",
      "from " ++ spec.ownerModule ++ " import " ++ spec.ownerName, "", ""] ++
    (["class " ++ spec.binderName ++ ":",
        "    def __init__(self, target: " ++ spec.ownerName ++ ") -> None:"] ++
      (spec.fields.map Field.constructorLine ++
        (["", "", "register_binder(" ++ spec.ownerName ++ ", " ++ spec.binderName ++ ", ("] ++
          (spec.fields.map Field.entryLine ++ ["))"]))))

private theorem lines_eq (spec : Spec) : spec.lines =
    generatedHeader :: ("# owner: " ++ spec.ownerQualifiedName) ::
      ((if spec.fields.any (·.type.isSome) then ["from typing import cast", ""] else []) ++
        spec.statementLines) := by
  unfold lines openingLines statementLines
  simp only [List.append_assoc, List.cons_append, List.nil_append]

namespace Writable

private theorem registration_program (h : spec.Writable) :
    ModuleText 7 [spec.IsEntering] ('\n' :: (spec.registrationText ++ ['\n'])) := by
  exact .newline (.statement ((h.registrationText_stated []).mono (by decide)) .textEnd
    (.newline .nil))

private theorem binder_program (h : spec.Writable) :
    ModuleText 7 [spec.IsBinder, spec.IsEntering] ('\n' :: (spec.binderText ++
        '\n' :: '\n' :: '\n' :: (spec.registrationText ++ ['\n']))) := by
  have hreturns := (h.registrationText_stated []).returns ['\n']
  exact .newline (.statement h.binderText_stated hreturns.cons.cons
    h.registration_program.newline.newline)

private theorem import_program {first : String} {more : List String} {name : String}
    (h : ∀ part ∈ first :: more, IsFreeName part) (hname : IsFreeName name)
    {properties : List (Stmt → Prop)} {rest : List Char} (hreturns : Returns 0 rest)
    (hrest : ModuleText 7 properties rest) :
    ModuleText 7 ((· = .importFrom 0 (first :: more) [([name], none)]) :: properties)
      ('\n' :: (importText first more name ++ rest)) :=
  .newline (.statement ((Says.importFrom h hname []).mono (by decide)) hreturns hrest)

private theorem statementLines_program (h : spec.Writable) :
    ModuleText 7 [(· = .importFrom 0 ["viewbind", "runtime", "registry"]
          [(["register_binder"], none)]),
        (· = .importFrom 0 (dottedParts spec.ownerModule) [([spec.ownerName], none)]),
        spec.IsBinder, spec.IsEntering] (furtherLines spec.statementLines ++ ['\n']) ∧
      Returns 0 (furtherLines spec.statementLines ++ ['\n']) := by
  obtain ⟨first, more, hmodule⟩ := List.exists_cons_of_ne_nil (dottedParts_ne_nil spec.ownerModule)
  have hparts : ∀ part ∈ first :: more, IsFreeName part := hmodule ▸ h.isFreeName_part
  have hregistry : ∀ part ∈ ["viewbind", "runtime", "registry"], IsFreeName part := by decide
  have hname : IsFreeName "register_binder" := by decide
  have howner := import_program hparts h.isFreeName_owner (h.binderText_stated.returns _).cons.cons
    h.binder_program.newline.newline
  have hprogram := import_program hregistry hname
    ((Says.importFrom hparts h.isFreeName_owner []).returns _).cons howner.newline
  have hline : "from viewbind.runtime.registry import register_binder".toList =
      importText "viewbind" ["runtime", "registry"] "register_binder" := rfl
  have hempty : "".toList = [] := rfl
  refine ⟨?_, ?_⟩
  · rw [← hline, ← toList_importLine hmodule, ← toList_binderLines, ← toList_registrationLines,
      ← hmodule] at hprogram
    simpa only [statementLines, furtherLines_append, furtherLines_cons, furtherLines_nil, hempty,
      List.append_assoc, List.cons_append, List.nil_append, List.append_nil] using hprogram
  · rw [statementLines, List.cons_append, furtherLines_cons, List.cons_append, List.append_assoc,
      hline]
    exact (Says.importFrom hregistry hname []).returns _

/-- The import of the cast stands in front if any field has a type. -/
private theorem furtherLines_program (h : spec.Writable) :
    ∃ text, furtherLines ((if spec.fields.any (·.type.isSome) then
        ["from typing import cast", ""] else []) ++ spec.statementLines) ++ ['\n'] = '\n' :: text ∧
      ModuleText 7 spec.statementKinds ('\n' :: text) := by
  obtain ⟨hprogram, hreturns⟩ := h.statementLines_program
  unfold statementKinds imports
  cases spec.fields.any (·.type.isSome) with
  | false =>
    obtain ⟨text, htext⟩ := hreturns.line
    exact ⟨text, htext, htext ▸ hprogram⟩
  | true =>
    have hempty : "".toList = [] := rfl
    have hline : "from typing import cast".toList = importText "typing" [] "cast" := rfl
    refine ⟨importText "typing" [] "cast" ++
      '\n' :: (furtherLines spec.statementLines ++ ['\n']), ?_, ?_⟩
    · simp only [if_true, furtherLines_cons, hempty, hline, List.cons_append, List.append_assoc,
        List.nil_append]
    · exact import_program (by decide) (by decide) hreturns.cons hprogram.newline

private theorem program (h : spec.Writable) :
    ModuleText 7 spec.statementKinds (spec.lines.flatMap fun line => line.toList ++ ['\n']) := by
  have howner : '\n' ∉ spec.ownerQualifiedName.toList :=
    h.without_lineEnd.not_mem_qualifiedName (by decide)
  obtain ⟨text, htext, hprogram⟩ := h.furtherLines_program
  have hheader : generatedHeader.toList = '#' :: " Generated by viewbind v0. Do not edit.".toList :=
    rfl
  have hcomment : ("# owner: " ++ spec.ownerQualifiedName).toList =
      '#' :: (" owner: ".toList ++ spec.ownerQualifiedName.toList) := by
    rw [String.toList_append]
    rfl
  rw [lines_eq, flatMap_lines, furtherLines_cons, List.cons_append, List.append_assoc, htext,
    hheader, hcomment]
  refine .comment (by decide) (.newline (.comment ?_ hprogram))
  rw [List.mem_append, not_or]
  exact ⟨by decide, howner⟩

/-- A unit whose texts can stand where they are is parsed as the statements it is made of. -/
theorem tree_eq (h : spec.Writable) {unit : BinderUnit}
    (hrender : spec.render .standard = .ok unit) :
    ∃ statements, (Source.ofOctets (encode unit.source)).tree = some ⟨statements⟩ ∧
      Matches spec.statementKinds statements := by
  have hprogram : ModuleText 7 spec.statementKinds unit.source.toList := by
    rw [toList_source hrender]
    exact h.program
  have hlength : 7 ≤ unit.source.toList.length + 1 := by
    have hmark := render_isGenerated hrender
    rw [isGenerated, List.isPrefixOf_iff_prefix] at hmark
    exact Nat.le_succ_of_le (le_trans (by decide) hmark.length_le)
  have hnull : ∀ c ∈ unit.source.toList, c.toNat ≠ 0 := by
    intro c hc hzero
    obtain rfl : c = Char.ofNat 0 := by rw [← hzero, Char.ofNat_toNat]
    have hwithout : spec.Without (Char.ofNat 0) := h.without (by decide) (by decide)
      fun field hfield type htype hmem => h.nullFree field hfield type htype _ hmem (by decide)
    exact hwithout.not_mem_source (by decide) (by decide) hrender hc
  rw [Source.ofOctets, decodeTolerant_encode]
  exact hprogram.parse?_eq hlength hnull

theorem parses (h : spec.Writable) {unit : BinderUnit}
    (hrender : spec.render .standard = .ok unit) :
    (Source.ofOctets (encode unit.source)).tree.isSome := by
  obtain ⟨statements, htree, -⟩ := h.tree_eq hrender
  rw [htree]
  rfl

end Writable

end Spec

/-- The texts of a class that was scanned can stand in its unit, but for the name of its module and
for fields that are named by keywords. -/
theorem DeclaredClass.Named.writable {declared : DeclaredClass} (h : declared.Named)
    (hfields : declared.fields ≠ []) (hshort : (declared.spec .standard).IsShort)
    (hmodule : ∀ part ∈ dottedParts declared.owner.moduleName, IsFreeName part)
    (hnames : ∀ field ∈ declared.fields, isReserved field.name = false) :
    (declared.spec .standard).Writable where
  module part hpart := (hmodule part hpart).toIsName
  owner := h.owner
  binder := rfl
  name field hfield := (h.field field hfield).name
  type field hfield := (h.field field hfield).type
  short := hshort
  freeModule part hpart := (hmodule part hpart).free
  freeOwner := h.free
  nonempty := hfields
  freeName := hnames
  nullFree field hfield := (h.field field hfield).nullFree

end ElementBinding
