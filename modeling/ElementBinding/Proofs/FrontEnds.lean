import ElementBinding.CommandLine
import ElementBinding.Service
import ElementBinding.Proofs.Pass.Course

/-!
# Two ways to a pass

The command line and the service take the same errands. With settings that both read alike, an
errand makes one pass of either: the same units are written and deleted, and the exit code tells of
the success that the answer tells of. The command line alone files a report of the pass.

The service does not read the setting that turns pruning off, and an empty output root is none to it
and the working directory to the command line.
-/
namespace ElementBinding
open ElementBinding.Text

/-- No value begins with the mark that may stand in front of a text. -/
theorem Json.read_marked (rest : List Char) :
    Json.read (Char.ofNat 0xFEFF :: rest) = .error (.malformed "Expecting value" 0) := rfl

/-- What both front ends can be asked for. -/
structure Errand where
  sourceRoot : String
  outputRoot : Option String := none
  checkOnly : Bool := false
  exclude : List String := []

namespace Errand

def words (errand : Errand) : List String :=
  errand.sourceRoot :: (errand.outputRoot.toList.flatMap fun root => ["-o", root]) ++
    (if errand.checkOnly then ["--check"] else []) ++
    errand.exclude.flatMap fun glob => ["--exclude", glob]

def arguments (errand : Errand) : CommandLine.Arguments where
  sourceRoot := some errand.sourceRoot
  outputRoot := errand.outputRoot
  check := errand.checkOnly
  exclude := errand.exclude

/-- The errand as the order of a body, which leaves pruning to the default. -/
def order (errand : Errand) : Service.Order where
  sourceRoot := some errand.sourceRoot
  outputRoot := errand.outputRoot
  checkOnly := errand.checkOnly
  exclude := errand.exclude

def texts (errand : Errand) : List String :=
  errand.sourceRoot :: errand.outputRoot.toList ++ errand.exclude

section
open CommandLine

/-- The word is what a text is where options may stand, and options may still stand behind it. -/
def IsRead (text : String) (word : Word) : Prop := Word.of text = .ok word ∧ word ≠ .separator

private theorem ofAll_of_isRead {texts : List String} {words : List Word}
    (h : List.Forall₂ IsRead texts words) : Word.ofAll texts = .ok words := by
  induction h with
  | nil => rfl
  | @cons text word texts words hfirst _ ih =>
    simp only [Word.ofAll, hfirst.1, ih, Bind.bind, Except.bind, pure, Except.pure]
    cases word with
    | separator => exact absurd rfl hfirst.2
    | _ => rfl

def marked (errand : Errand) : List Word :=
  .plain errand.sourceRoot ::
    (errand.outputRoot.toList.flatMap fun root => [.letter .outputRoot [], .plain root]) ++
    (if errand.checkOnly then [.long .check none] else []) ++
    errand.exclude.flatMap fun glob => [.long .exclude none, .plain glob]

private theorem isRead_options {texts : List String} {name : String} {option : Word}
    (hname : IsRead name option) (h : ∀ text ∈ texts, IsRead text (.plain text)) :
    List.Forall₂ IsRead (texts.flatMap fun text => [name, text])
      (texts.flatMap fun text => [option, .plain text]) := by
  induction texts with
  | nil => exact .nil
  | cons text rest ih =>
    rw [List.forall_mem_cons] at h
    exact .cons hname (.cons h.1 (ih h.2))

private theorem ofAll_words {errand : Errand}
    (h : ∀ text ∈ errand.texts, Word.of text = .ok (.plain text)) :
    Word.ofAll errand.words = .ok errand.marked := by
  have hplain : ∀ text ∈ errand.texts, IsRead text (.plain text) :=
    fun text htext => ⟨h text htext, by simp⟩
  simp only [texts, List.cons_append, List.forall_mem_cons, List.forall_mem_append] at hplain
  obtain ⟨hroot, houtput, hexclude⟩ := hplain
  have hcheck : List.Forall₂ IsRead (if errand.checkOnly then ["--check"] else [])
      (if errand.checkOnly then [.long .check none] else []) := by
    split
    · exact .cons ⟨rfl, by decide⟩ .nil
    · exact .nil
  apply ofAll_of_isRead
  exact List.rel_append (List.rel_append (.cons hroot (isRead_options ⟨rfl, by decide⟩ houtput))
    hcheck) (isRead_options ⟨rfl, by decide⟩ hexclude)

private def rooted (arguments : Arguments) (justRooted : Bool) : Progress :=
  { arguments, rooted := true, justRooted }

private theorem foldlM_valued {arguments : Arguments} {justRooted : Bool} {option : Word}
    {flag : Flag} {text : String} (rest : List Word) (hhelp : arguments.help = false)
    (hvalue : flag.takesValue) (hoption : option = .letter flag [] ∨ option = .long flag none) :
    (option :: .plain text :: rest).foldlM Progress.read (rooted arguments justRooted) =
      rest.foldlM Progress.read (rooted (arguments.noteValue text flag) false) := by
  have hname : (rooted arguments justRooted).read option =
      .ok { rooted arguments false with awaiting := some flag } := by
    rcases hoption with rfl | rfl
    · simp [rooted, Progress.read, hhelp, Progress.readLetters, Progress.readFlag, hvalue]
    · simp [rooted, Progress.read, hhelp, Progress.readLong, Progress.readFlag, hvalue]
  have htext : { rooted arguments false with awaiting := some flag }.read (.plain text) =
      .ok (rooted (arguments.noteValue text flag) false) := by
    simp [rooted, Progress.read, Progress.readValue]
  simp only [List.foldlM_cons, hname, htext, Bind.bind, Except.bind]

private theorem foldlM_excludes (globs : List String) {arguments : Arguments}
    (h : arguments.help = false) (justRooted : Bool) :
    ∃ just, (globs.flatMap fun glob => [Word.long .exclude none, .plain glob]).foldlM Progress.read
        (rooted arguments justRooted) =
      .ok (rooted { arguments with exclude := arguments.exclude ++ globs } just) := by
  induction globs generalizing arguments justRooted with
  | nil => exact ⟨justRooted, by rw [List.append_nil]; rfl⟩
  | cons glob rest ih =>
    obtain ⟨just, hrest⟩ := @ih (arguments.noteValue glob .exclude) h false
    refine ⟨just, ?_⟩
    rw [List.flatMap_cons, List.cons_append, List.cons_append, List.nil_append,
      foldlM_valued _ h rfl (.inr rfl), hrest]
    simp [Arguments.noteValue]

theorem read_words {errand : Errand}
    (h : ∀ text ∈ errand.texts, Word.of text = .ok (.plain text)) :
    Arguments.read errand.words = .ok errand.arguments := by
  let rootsRead : Arguments := { errand.arguments with check := false, exclude := [] }
  let checkRead : Arguments := { errand.arguments with exclude := [] }
  have hroot : Progress.read {} (.plain errand.sourceRoot) =
      .ok (rooted { sourceRoot := some errand.sourceRoot } true) := rfl
  have houtput : ∃ just, (errand.outputRoot.toList.flatMap fun root =>
      [Word.letter .outputRoot [], .plain root]).foldlM Progress.read
        (rooted { sourceRoot := some errand.sourceRoot } true) = .ok (rooted rootsRead just) := by
    simp only [rootsRead, arguments]
    cases errand.outputRoot with
    | none => exact ⟨true, rfl⟩
    | some root => exact ⟨false, foldlM_valued [] rfl rfl (.inl rfl)⟩
  obtain ⟨first, houtput⟩ := houtput
  have hcheck : ∃ just, (if errand.checkOnly then [Word.long .check none] else []).foldlM
      Progress.read (rooted rootsRead first) = .ok (rooted checkRead just) := by
    simp only [rootsRead, checkRead, arguments]
    cases errand.checkOnly with
    | false => exact ⟨first, rfl⟩
    | true => exact ⟨false, rfl⟩
  obtain ⟨second, hcheck⟩ := hcheck
  obtain ⟨third, hexclude⟩ := foldlM_excludes errand.exclude (rfl : checkRead.help = false) second
  have hall : errand.marked.foldlM Progress.read {} = .ok (rooted errand.arguments third) := by
    simp only [marked, List.foldlM_append, List.foldlM_cons, hroot, houtput, hcheck, hexclude,
      Bind.bind, Except.bind]
    rfl
  simp only [Arguments.read, ofAll_words h, hall, Bind.bind, Except.bind]
  rfl

end
section
open Service

/-- The object is a body for the errand. A member for what is not asked for may be left out, and
pruning is left to the default. -/
structure IsBody (errand : Errand) (body : Json) : Prop where
  object : ∃ members, body = .object members
  sourceRoot : body.member? "source_root" = some (.text errand.sourceRoot)
  outputRoot : (body.member? "output_root").getD .null = Json.ofText? errand.outputRoot
  checkOnly : (body.member? "check_only").getD (.bool false) = .bool errand.checkOnly
  prune : body.member? "prune" = none
  exclude : (body.member? "exclude").getD (.array []) = .array (errand.exclude.map .text)

private theorem readItems_texts (place : List Json) (index : Nat) (texts : List String) :
    readItems place index (texts.map .text) = .ok texts := by
  induction texts generalizing index with
  | nil => rfl
  | cons text rest ih =>
    rw [List.map_cons, readItems, ih]
    rfl

private theorem readMember_eq {α : Type} {body fallback input : Json} {name : String}
    {default value : α} {read : List Json → Json → Except (List Complaint) α}
    (hmember : (body.member? name).getD fallback = input)
    (hdefault : read [.text name] fallback = .ok default)
    (hread : read [.text name] input = .ok value) :
    readMember body name default read = .ok value := by
  unfold readMember
  cases hfound : body.member? name with
  | none =>
    rw [hfound, Option.getD_none] at hmember
    rw [hmember, hread] at hdefault
    rw [hdefault]
  | some found =>
    rw [hfound, Option.getD_some] at hmember
    rw [hmember]
    exact hread

private theorem ofJson_of_isBody {errand : Errand} {body : Json} (h : errand.IsBody body) :
    Order.ofJson body = .ok errand.order := by
  have hroot : readMember body "source_root" none readText? = .ok (some errand.sourceRoot) := by
    rw [readMember, h.sourceRoot]
    rfl
  have houtput : readMember body "output_root" none readText? = .ok errand.outputRoot := by
    refine readMember_eq h.outputRoot rfl ?_
    cases errand.outputRoot <;> rfl
  have hcheck : readMember body "check_only" false readFlag = .ok errand.checkOnly :=
    readMember_eq h.checkOnly rfl rfl
  have hprune : readMember body "prune" true readFlag = .ok true := by
    rw [readMember, h.prune]
  have hexclude : readMember body "exclude" [] readTexts = .ok errand.exclude :=
    readMember_eq h.exclude rfl (readItems_texts _ 0 errand.exclude)
  obtain ⟨members, rfl⟩ := h.object
  simp only [Order.ofJson, hroot, houtput, hcheck, hprune, hexclude, both]
  rfl

theorem ofBody_of_isBody {errand : Errand} {text : String} {body : Json}
    (hread : Json.read text.toList = .ok body) (h : errand.IsBody body) :
    Order.ofBody text = .ok errand.order := by
  have hmark : text.toList.head? ≠ some (Char.ofNat 0xFEFF) := fun hhead => by
    obtain ⟨rest, htext⟩ := List.head?_eq_some_iff.mp hhead
    rw [htext, Json.read_marked] at hread
    cases hread
  have hsome : text.toList.isEmpty = false := by
    cases htext : text.toList with
    | nil =>
      rw [htext] at hread
      cases hread
    | cons => rfl
  simp only [Order.ofBody, hmark, hsome, hread, ofJson_of_isBody h, if_false, Bool.false_eq_true]
  rfl

end

end Errand

namespace Service

private theorem allFinite_of_forall {items : List Json} (h : ∀ item ∈ items, isFinite item) :
    allFinite items := by
  induction items with
  | nil => rfl
  | cons item rest ih =>
    rw [List.forall_mem_cons] at h
    rw [allFinite, h.1, ih h.2]
    rfl

private theorem isFinite_texts (texts : List String) : isFinite (Json.texts texts) := by
  apply allFinite_of_forall
  intro item hitem
  obtain ⟨text, -, rfl⟩ := List.mem_map.mp hitem
  rfl

private theorem isFinite_ofText? (text : Option String) : isFinite (Json.ofText? text) := by
  cases text <;> rfl

private theorem isFinite_ownerResult (owner : OwnerReport) : isFinite (ownerResult owner) := by
  simp [ownerResult, isFinite, membersFinite, isFinite_ofText?, Judgement.members, isFinite_texts]

theorem ofJson_passResult (status : Nat) (report : Report) :
    Response.ofJson status (passResult report) = ⟨status, .json (passResult report)⟩ := by
  have hresults : allFinite (report.owners.map ownerResult) := by
    apply allFinite_of_forall
    intro item hitem
    obtain ⟨owner, -, rfl⟩ := List.mem_map.mp hitem
    exact isFinite_ownerResult owner
  have hfinite : isFinite (passResult report) := by
    simp [passResult, isFinite, membersFinite, isFinite_texts, hresults]
  exact if_pos hfinite

theorem answer_generate (settings : Settings) (body : String) (tree : FileTree) :
    answer settings ⟨"POST", generatePath, body⟩ tree = generate settings body tree := by
  have hmethod : String.ofList ("POST".toList.map (·.toUpper)) = "POST" := by decide
  have hpath : plainPath generatePath = generatePath := by decide
  have hhealth : generatePath ≠ healthPath := by decide
  have hhead : "POST" ≠ "HEAD" := by decide
  simp only [answer, hmethod, hpath, route, hhealth, hhead, if_false, if_true]

end Service

open CommandLine Service

/-- The outcome of a command line and the answer of the service tell of one pass. They leave the
same tree and agree on the success of the pass, but for the report that the command line files in a
directory, if it has one, and for what stops it there. -/
inductive SamePass (directory : Option Path) :
    FileTree × Except Failure Outcome → FileTree × Response → Prop
  | reported {tree : FileTree} {report : Report} {outcome : Outcome} (nowhere : directory = none)
      (exit : outcome.exit = 0 ↔ report.ok) (output : outcome.output = joinLines (summary report)) :
      SamePass directory (tree, .ok outcome) (tree, ⟨200, .json (passResult report)⟩)
  | filed {tree after : FileTree} {report : Report} {outcome : Outcome} {place file : Path}
      (there : directory = some place) (exit : outcome.exit = 0 ↔ report.ok)
      (output : outcome.output = joinLines (summary report))
      (written : writeReport tree report place = (after, .ok file)) :
      SamePass directory (after, .ok outcome) (tree, ⟨200, .json (passResult report)⟩)
  | unwritten {tree after : FileTree} {report : Report} {place : Path}
      {interruption : Interruption} (there : directory = some place)
      (failed : writeReport tree report place = (after, .error interruption)) :
      SamePass directory (after, .error (.interrupted interruption))
        (tree, ⟨200, .json (passResult report)⟩)
  | interrupted {tree : FileTree} {interruption : Interruption} :
      SamePass directory (tree, .error (.interrupted interruption)) (tree, .failure)

/-- Both front ends read the settings alike for the errand, and its texts are plain words. -/
structure Errand.Fits (errand : Errand) (settings : Settings) : Prop where
  plain : ∀ text ∈ errand.texts, Word.of text = .ok (.plain text)
  rooted : errand.sourceRoot ≠ ""
  placed : (errand.outputRoot <|> settings.outputRoot) ≠ some ""
  prunes : settings.prune = true
  level : (Level.threshold? settings.logLevel).isSome

private theorem request_sourceRoot (errand : Errand) (settings : Settings) :
    (errand.arguments.request settings).sourceRoot = .ofText errand.sourceRoot := by
  simp only [Arguments.request, Errand.arguments, Option.getD_some]

private theorem request_unfiled {errand : Errand} {settings : Settings} (h : errand.Fits settings) :
    (errand.arguments.request settings).unfiled = errand.order.request settings := by
  have hfilter {root : String} (hne : root ≠ "") : nonEmpty? (some root) = some root := by
    simp [nonEmpty?, hne]
  have houtput : nonEmpty? ((nonEmpty? errand.outputRoot).or settings.outputRoot) =
      errand.outputRoot.or settings.outputRoot := by
    have hplaced := h.placed
    cases hgiven : errand.outputRoot with
    | none =>
      cases hset : settings.outputRoot with
      | none => rfl
      | some root =>
        rw [hgiven, hset] at hplaced
        exact hfilter fun heq => hplaced (congrArg some heq)
    | some root =>
      rw [hgiven] at hplaced
      have hne : root ≠ "" := fun heq => hplaced (congrArg some heq)
      rw [hfilter hne, Option.some_or, hfilter hne]
  simp [Arguments.request, Request.unfiled, Order.request, Errand.arguments, Errand.order,
    hfilter h.rooted, houtput, h.prunes]

private def answered : Except Interruption Report → Response
  | .ok report => ⟨200, .json (passResult report)⟩
  | .error _ => .failure

private theorem answer_unfiled {settings : Settings} {errand : Errand} {tree : FileTree}
    {text : String} {body : Json} (hfits : errand.Fits settings)
    (hroot : tree.isDirectory (.ofText errand.sourceRoot))
    (hread : Json.read text.toList = .ok body) (hbody : errand.IsBody body) :
    answer settings ⟨"POST", generatePath, text⟩ tree =
      (((errand.arguments.request settings).unfiled.run tree).tree,
        answered ((errand.arguments.request settings).unfiled.run tree).result) := by
  have hsource : (errand.arguments.request settings).unfiled.sourceRoot =
      .ofText errand.sourceRoot := request_sourceRoot errand settings
  rw [answer_generate, generate, Errand.ofBody_of_isBody hread hbody]
  dsimp only
  rw [Order.run, ← request_unfiled hfits, hsource, if_pos hroot]
  rcases (errand.arguments.request settings).unfiled.run tree with
    ⟨interruption | report, after, events⟩
  · rfl
  · dsimp only
    rw [ofJson_passResult, answered]

private theorem samePass_of_run {settings : Settings} {arguments : Arguments} {threshold : Nat}
    {tree : FileTree} (hroot : tree.isDirectory (arguments.request settings).sourceRoot) :
    SamePass (arguments.request settings).reportDirectory (arguments.run settings threshold tree)
      (((arguments.request settings).unfiled.run tree).tree,
        answered ((arguments.request settings).unfiled.run tree).result) := by
  have hrun := (arguments.request settings).run_unfiled tree
  rw [Arguments.run]
  dsimp only
  rw [if_pos hroot]
  generalize arguments.request settings = request at *
  have hexit (report : Report) : (if report.ok then 0 else 1) = 0 ↔ report.ok := by
    cases report.ok <;> simp
  cases hresult : (request.unfiled.run tree).result with
  | error interruption =>
    rw [hresult] at hrun
    obtain ⟨hfault, htree⟩ := Prod.mk.inj hrun
    rw [hfault, htree]
    exact .interrupted
  | ok report =>
    rw [hresult] at hrun
    cases hplace : request.reportDirectory with
    | none =>
      rw [hplace] at hrun
      obtain ⟨hreport, htree⟩ := Prod.mk.inj hrun
      rw [hreport, htree]
      exact .reported rfl (hexit report) rfl
    | some place =>
      rw [hplace] at hrun
      dsimp only at hrun
      rcases hwrite : writeReport (request.unfiled.run tree).tree report place with
        ⟨after, interruption | file⟩
      · rw [hwrite] at hrun
        obtain ⟨hfault, htree⟩ := Prod.mk.inj hrun
        rw [hfault, htree]
        exact .unwritten rfl hwrite
      · rw [hwrite] at hrun
        obtain ⟨hreport, htree⟩ := Prod.mk.inj hrun
        rw [hreport, htree]
        exact .filed rfl (hexit report) rfl hwrite

/-- An errand that both front ends read alike makes the same pass of either. -/
theorem frontEnds_agree {settings : Settings} {errand : Errand} {tree : FileTree} {text : String}
    {body : Json} (hfits : errand.Fits settings)
    (hroot : tree.isDirectory (.ofText errand.sourceRoot))
    (hread : Json.read text.toList = .ok body) (hbody : errand.IsBody body) :
    SamePass (settings.reportDirectory.map .ofText) (CommandLine.run settings errand.words tree)
      (answer settings ⟨"POST", generatePath, text⟩ tree) := by
  obtain ⟨threshold, hlevel⟩ := Option.isSome_iff_exists.mp hfits.level
  have hcommand : CommandLine.run settings errand.words tree =
      errand.arguments.run settings threshold tree := by
    have hhelp : errand.arguments.help = false := rfl
    have hverbose : errand.arguments.verbose = false := rfl
    simp only [CommandLine.run, Errand.read_words hfits.plain, hhelp, hverbose, hlevel,
      Bool.false_eq_true, if_false]
  rw [hcommand, answer_unfiled hfits hroot hread hbody]
  have hdirectory : (errand.arguments.request settings).reportDirectory =
      settings.reportDirectory.map .ofText := rfl
  rw [← hdirectory]
  apply samePass_of_run
  rw [request_sourceRoot]
  exact hroot

/-- A source root without sources, and a unit of nobody at some place. -/
private def strayTree (place : Location) : FileTree :=
  { entries := [(["src"], .directory), (place, .file (encode generatedHeader))] }

private def checkErrand : Errand := { sourceRoot := "src", checkOnly := true }

private def checkText : String := "\x7b\"check_only\": true, \"source_root\": \"src\"\x7d"

private def checkBody : Json := .object [("check_only", .bool true), ("source_root", .text "src")]

private theorem checkErrand_fits : checkErrand.Fits {} where
  plain := by decide
  rooted := by decide
  placed := by decide
  prunes := rfl
  level := rfl

/-- A check of a tree with a unit of nobody. -/
theorem frontEnds_agree_check :
    SamePass none (CommandLine.run {} ["src", "--check"] (strayTree ["src", "b.py"]))
      (answer {} ⟨"POST", generatePath, checkText⟩ (strayTree ["src", "b.py"])) := by
  have hroot : (strayTree ["src", "b.py"]).isDirectory (.ofText checkErrand.sourceRoot) := by
    decide +kernel
  have hread : Json.read checkText.toList = .ok checkBody := rfl
  have hbody : checkErrand.IsBody checkBody := ⟨⟨_, rfl⟩, rfl, rfl, rfl, rfl, rfl⟩
  have hwords : checkErrand.words = ["src", "--check"] := rfl
  have hagree := frontEnds_agree checkErrand_fits hroot hread hbody
  rw [hwords] at hagree
  exact hagree

/-- The front ends leave different trees behind for an errand of plain words, from a tree in which
the source root is a directory. -/
def Errand.Parts (errand : Errand) (settings : Settings) : Prop :=
  ∃ (tree : FileTree) (text : String) (body : Json),
    tree.isDirectory (.ofText errand.sourceRoot) ∧
    (∀ word ∈ errand.texts, Word.of word = .ok (.plain word)) ∧
    Json.read text.toList = .ok body ∧ errand.IsBody body ∧
    (CommandLine.run settings errand.words tree).1 ≠
      (answer settings ⟨"POST", generatePath, text⟩ tree).1

/-- An empty output root is the working directory to the command line, which deletes a unit there,
and none to the service. The service deletes units though the settings turn pruning off. -/
theorem frontEnds_differ :
    ({ sourceRoot := "src", outputRoot := some "" } : Errand).Parts {} ∧
    ({ sourceRoot := "src" } : Errand).Parts { prune := false } := by
  constructor
  · let body : Json := .object [("source_root", .text "src"), ("output_root", .text "")]
    have hbody : Errand.IsBody { sourceRoot := "src", outputRoot := some "" } body :=
      ⟨⟨_, rfl⟩, rfl, rfl, rfl, rfl, rfl⟩
    exact ⟨strayTree ["b.py"], "\x7b\"source_root\": \"src\", \"output_root\": \"\"\x7d", body,
      by decide +kernel, by decide, rfl, hbody, by decide +kernel⟩
  · let body : Json := .object [("source_root", .text "src")]
    have hbody : Errand.IsBody { sourceRoot := "src" } body :=
      ⟨⟨_, rfl⟩, rfl, rfl, rfl, rfl, rfl⟩
    exact ⟨strayTree ["src", "b.py"], "\x7b\"source_root\": \"src\"\x7d", body,
      by decide +kernel, by decide, rfl, hbody, by decide +kernel⟩

end ElementBinding
