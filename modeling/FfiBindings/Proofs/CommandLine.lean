import FfiBindings.CommandLine.Parse
import FfiBindings.Proofs.Work

set_option autoImplicit false

namespace FfiBindings.CommandLine

structure Operand where
  text : String
  plain : text.toList.head? ≠ some '-'

inductive Written where
  | verbose (short : Bool)
  | logFile (value : Operand)
  | skipCompile

namespace Written

def flag : Written → Flag
  | verbose _ => .verbose
  | logFile _ => .logFile
  | skipCompile => .skipCompile

def texts : Written → List String
  | verbose short => [if short then "-v" else "--verbose"]
  | logFile value => ["--log-file", value.text]
  | skipCompile => ["--skip-compile"]

def words : Written → List Word
  | verbose _ => [.switches [.verbose]]
  | logFile value => [.valued .logFile none, .operand value.text]
  | skipCompile => [.switches [.skipCompile]]

def isVerbose : Written → Bool
  | verbose _ => true
  | _ => false

def isSkipCompile : Written → Bool
  | skipCompile => true
  | _ => false

def file? : Written → Option Path
  | logFile value => some (Path.ofString value.text)
  | _ => none

def note (given : Given) : Written → Given
  | verbose _ => { given with verbose := true }
  | logFile value => given.value value.text
  | skipCompile => { given with skipCompile := true }

end Written

abbrev Known (level : Level) : Type := { written : Written // written.flag ∈ level.flags }

def lastFile (options : List Written) : Option Path :=
  (options.filterMap Written.file?).getLast?

theorem lastFile_append (first second : List Written) :
    lastFile (first ++ second) = (lastFile second).or (lastFile first) := by
  simp [lastFile, List.getLast?_append]

theorem foldl_note (options : List Written) (given : Given) :
    options.foldl Written.note given =
      { given with
        verbose := given.verbose || options.any Written.isVerbose
        logFile := (lastFile options).or given.logFile
        skipCompile := given.skipCompile || options.any Written.isSkipCompile } := by
  induction options generalizing given with
  | nil => simp [lastFile]
  | cons option rest ih =>
    rw [List.foldl_cons, ih, ← List.singleton_append, lastFile_append]
    cases option <;>
      simp [Written.note, Given.value, Written.isVerbose, Written.isSkipCompile, lastFile,
        Written.file?]

theorem foldl_note_directory (options : List Written) (given : Given) (directory : Option String) :
    options.foldl Written.note { given with directory } =
      { options.foldl Written.note given with directory } := by
  rw [foldl_note, foldl_note]

theorem ofText_operand (flags : List Flag) (operand : Operand) :
    Word.ofText flags operand.text = .ok (.operand operand.text) := by
  have plain := operand.plain
  unfold Word.ofText
  split
  · next found => simp [found] at plain
  · next found => simp [found] at plain
  · rfl

theorem ofTexts_cons {text : String} (noSeparator : text ≠ "--") {flags : List Flag} {word : Word}
    {rest : List String} {words : List Word} (first : Word.ofText flags text = .ok word)
    (others : Word.ofTexts flags rest = .ok words) :
    Word.ofTexts flags (text :: rest) = .ok (word :: words) := by
  rw [Word.ofTexts.eq_3 _ _ _ noSeparator, first, others]
  rfl

theorem Operand.ne_separator (operand : Operand) : operand.text ≠ "--" := by
  intro same
  have plain := operand.plain
  rw [same] at plain
  exact plain (by decide)

theorem ofTexts_operand {flags : List Flag} (operand : Operand) {rest : List String}
    {words : List Word} (others : Word.ofTexts flags rest = .ok words) :
    Word.ofTexts flags (operand.text :: rest) = .ok (.operand operand.text :: words) :=
  ofTexts_cons operand.ne_separator (ofText_operand flags operand) others

theorem ofTexts_known {level : Level} (option : Known level) {rest : List String}
    {words : List Word} (others : Word.ofTexts level.flags rest = .ok words) :
    Word.ofTexts level.flags (option.val.texts ++ rest) = .ok (option.val.words ++ words) := by
  obtain ⟨option, known⟩ := option
  cases option with
  | verbose short =>
    cases short with
    | true =>
      refine ofTexts_cons (by decide) ?_ others
      cases level with
      | program => rfl
      | command name => cases name <;> rfl
    | false =>
      refine ofTexts_cons (by decide) ?_ others
      cases level with
      | program => rfl
      | command name => cases name <;> rfl
  | logFile value =>
    refine ofTexts_cons (by decide) ?_ (ofTexts_operand value others)
    cases level with
    | program => rfl
    | command name => cases name <;> rfl
  | skipCompile =>
    refine ofTexts_cons (by decide) ?_ others
    cases level with
    | program => exact absurd known (by decide)
    | command name =>
      cases name with
      | generate => rfl
      | clean => exact absurd known (by decide)

def textsOf {level : Level} (options : List (Known level)) : List String :=
  options.flatMap fun option => option.val.texts

def wordsOf {level : Level} (options : List (Known level)) : List Word :=
  options.flatMap fun option => option.val.words

def written {level : Level} (options : List (Known level)) : List Written :=
  options.map Subtype.val

theorem ofTexts_options {level : Level} (options : List (Known level)) {rest : List String}
    {words : List Word} (others : Word.ofTexts level.flags rest = .ok words) :
    Word.ofTexts level.flags (textsOf options ++ rest) = .ok (wordsOf options ++ words) := by
  induction options with
  | nil => exact others
  | cons option later ih =>
    simp only [textsOf, wordsOf, List.flatMap_cons, List.append_assoc]
    exact ofTexts_known option ih

theorem length_of_ofTexts {flags : List Flag} {texts : List String} {words : List Word}
    (classified : Word.ofTexts flags texts = .ok words) : words.length = texts.length := by
  fun_induction Word.ofTexts flags texts generalizing words with
  | case1 =>
    cases classified
    rfl
  | case2 rest =>
    cases classified
    simp
  | case3 text rest noSeparator ih =>
    obtain ⟨first, -, later⟩ := Except.bind_eq_ok.mp classified
    obtain ⟨others, found, made⟩ := Except.bind_eq_ok.mp later
    cases made
    simp [ih found]

theorem ofTexts_all {level : Level} (options : List (Known level)) :
    Word.ofTexts level.flags (textsOf options) = .ok (wordsOf options) := by
  simpa using ofTexts_options options (Word.ofTexts.eq_1 _)

-- What stands behind the command is nothing that the program itself could stumble over.
theorem program_classifies {level : Level} (options : List (Known level)) {rest : List String}
    (others : ∃ words, Word.ofTexts (Level.flags .program) rest = .ok words) :
    ∃ words, Word.ofTexts (Level.flags .program) (textsOf options ++ rest) = .ok words := by
  induction options with
  | nil => exact others
  | cons option later ih =>
    obtain ⟨words, classified⟩ := ih
    simp only [textsOf, List.flatMap_cons, List.append_assoc]
    obtain ⟨option, -⟩ := option
    cases option with
    | verbose short =>
      have known : Flag.verbose ∈ Level.program.flags := by decide
      exact ⟨_, ofTexts_known ⟨.verbose short, known⟩ classified⟩
    | logFile value =>
      have known : Flag.logFile ∈ Level.program.flags := by decide
      exact ⟨_, ofTexts_known ⟨.logFile value, known⟩ classified⟩
    | skipCompile =>
      have foreign : Word.ofText (Level.flags .program) "--skip-compile" =
          .ok (.unknown "--skip-compile") := rfl
      exact ⟨_, ofTexts_cons (by decide) foreign classified⟩

theorem program_classifies_all {level : Level} (options : List (Known level)) :
    ∃ words, Word.ofTexts (Level.flags .program) (textsOf options) = .ok words := by
  simpa using program_classifies options ⟨[], Word.ofTexts.eq_1 _⟩

theorem length_words (option : Written) : option.texts.length = option.words.length := by
  cases option <;> rfl

theorem readProgram_known (option : Known .program) (given : Given) (rest : List (String × Word)) :
    readProgram given (option.val.texts.zip option.val.words ++ rest) =
      readProgram (option.val.note given) rest := by
  obtain ⟨option, known⟩ := option
  cases option with
  | verbose short => rfl
  | logFile value => rfl
  | skipCompile => exact absurd known (by decide)

theorem readProgram_options (options : List (Known .program)) (given : Given)
    (rest : List (String × Word)) :
    readProgram given ((textsOf options).zip (wordsOf options) ++ rest) =
      readProgram ((written options).foldl Written.note given) rest := by
  induction options generalizing given with
  | nil => rfl
  | cons option later ih =>
    simp only [textsOf, wordsOf, List.flatMap_cons]
    rw [List.zip_append (length_words option.val), List.append_assoc, readProgram_known]
    exact ih _

theorem readCommand_known {name : CommandName} (option : Known (.command name)) (given : Given)
    (rest : List Word) :
    readCommand name given (option.val.words ++ rest) =
      readCommand name (option.val.note given) rest := by
  obtain ⟨option, known⟩ := option
  cases option <;> rfl

theorem readCommand_options {name : CommandName} (options : List (Known (.command name)))
    (given : Given) (rest : List Word) :
    readCommand name given (wordsOf options ++ rest) =
      readCommand name ((written options).foldl Written.note given) rest := by
  induction options generalizing given with
  | nil => rfl
  | cons option later ih =>
    simp only [wordsOf, List.flatMap_cons, List.append_assoc]
    rw [readCommand_known]
    exact ih _

theorem readCommand_all {name : CommandName} (options : List (Known (.command name)))
    (given : Given) :
    readCommand name given (wordsOf options) =
      .ok ((written options).foldl Written.note given) := by
  simpa [readCommand] using readCommand_options options given []

theorem wordsOf_ne_separator {level : Level} (options : List (Known level)) (rest : List Word) :
    wordsOf options ≠ .separator :: rest := by
  cases options with
  | nil => exact nofun
  | cons option later =>
    obtain ⟨option, -⟩ := option
    cases option <;> simp [wordsOf, Written.words]

theorem readCommand_directory {name : CommandName} {given : Given} (none : given.directory = none)
    (directory : String) (options : List (Known (.command name))) :
    readCommand name given (.operand directory :: wordsOf options) =
      readCommand name { given with directory := some directory } (wordsOf options) := by
  -- A separator behind the directory would be swallowed with it.
  rw [readCommand.eq_9 _ _ _ _ (wordsOf_ne_separator options), none]

theorem requestOf_read {outer given : Given} {name : CommandName} {texts : List String}
    {words : List Word} {command : Command}
    (classified : Word.ofTexts (Level.command name).flags texts = .ok words)
    (read : readCommand name {} words = .ok given) (made : commandOf name given = .ok command)
    (understood : outer.unrecognised ++ given.unrecognised = []) :
    requestOf outer name texts = .ok {
      verbose := outer.verbose || given.verbose
      logFile := given.logFile.or outer.logFile
      command } := by
  simp only [requestOf, classified, Except.mapError_ok, read, made, understood, bind, Except.bind]
  rfl

theorem parse_command (pre : List (Known .program)) (name : CommandName) {post : List String}
    (classified : ∃ words, Word.ofTexts (Level.flags .program) post = .ok words) :
    parse (textsOf pre ++ name.text :: post) =
      requestOf ((written pre).foldl Written.note {}) name post := by
  obtain ⟨words, classified⟩ := classified
  have operand : Word.ofText (Level.flags .program) name.text = .ok (.operand name.text) := by
    cases name <;> rfl
  have noSeparator : name.text ≠ "--" := by
    cases name <;> decide
  have named : CommandName.ofText? name.text = some name := by
    cases name <;> rfl
  have lengths : (textsOf pre).length = (wordsOf pre).length := by
    simp [textsOf, wordsOf, List.length_flatMap, length_words]
  have handed : (post.zip words).map (·.1) = post :=
    List.map_fst_zip (Nat.le_of_eq (length_of_ofTexts classified).symm)
  rw [parse, ofTexts_options pre (ofTexts_cons noSeparator operand classified)]
  change readProgram {} (List.zip _ _) = _
  -- The command is the first operand that is no value, so the program hands over what follows it.
  rw [List.zip_append lengths, readProgram_options, List.zip_cons_cons, readProgram.eq_10, named,
    handed]

theorem any_isSkipCompile_program (options : List (Known .program)) :
    (written options).any Written.isSkipCompile = false := by
  simp only [written, List.any_map, List.any_eq_false]
  rintro ⟨option, known⟩ -
  cases option with
  | skipCompile => exact absurd known (by decide)
  | verbose short => exact nofun
  | logFile value => exact nofun

theorem parse_of_read (pre : List (Known .program)) {name : CommandName} {post : List String}
    {words : List Word} {options : List Written} {directory : Option String} {command : Command}
    (foreign : ∃ words, Word.ofTexts (Level.flags .program) post = .ok words)
    (classified : Word.ofTexts (Level.command name).flags post = .ok words)
    (read : readCommand name {} words =
      .ok { options.foldl Written.note {} with directory })
    (made : commandOf name { options.foldl Written.note {} with directory } = .ok command) :
    parse (textsOf pre ++ name.text :: post) =
      .ok {
        verbose := (written pre ++ options).any Written.isVerbose
        logFile := lastFile (written pre ++ options)
        command } := by
  have outer := foldl_note (written pre) {}
  have inner := foldl_note options {}
  rw [parse_command pre name foreign,
    requestOf_read classified read made (by rw [outer, inner]; rfl), outer, inner]
  simp [lastFile_append]

theorem readCommand_around {name : CommandName} (before after : List (Known (.command name)))
    (directory : Operand) :
    readCommand name {} (wordsOf before ++ .operand directory.text :: wordsOf after) =
      .ok {
        (written before ++ written after).foldl Written.note {} with
        directory := some directory.text } := by
  have undirected : ((written before).foldl Written.note {}).directory = none := by
    rw [foldl_note]
  rw [readCommand_options, readCommand_directory undirected, readCommand_all,
    foldl_note_directory, ← List.foldl_append]

theorem parse_around (pre : List (Known .program)) {name : CommandName}
    (before after : List (Known (.command name))) (directory : Operand) {command : Command}
    (made : commandOf name {
      (written before ++ written after).foldl Written.note {} with
      directory := some directory.text } = .ok command) :
    parse (textsOf pre ++ name.text :: (textsOf before ++ directory.text :: textsOf after)) =
      .ok {
        verbose := (written pre ++ (written before ++ written after)).any Written.isVerbose
        logFile := lastFile (written pre ++ (written before ++ written after))
        command } := by
  obtain ⟨words, foreign⟩ := program_classifies_all after
  exact parse_of_read pre
    (program_classifies before ⟨_, ofTexts_operand directory foreign⟩)
    (ofTexts_options before (ofTexts_operand directory (ofTexts_all after)))
    (readCommand_around before after directory) made

/-- The options may stand in front of the command and behind it, in any order and as often as one
likes, and the directory anywhere among those behind it. -/
theorem options_on_either_side (pre : List (Known .program)) :
    (∀ (before after : List (Known (.command .generate))) (directory : Operand),
      let options := written pre ++ (written before ++ written after)
      parse (textsOf pre ++ "generate" ::
          (textsOf before ++ directory.text :: textsOf after)) =
        .ok {
          verbose := options.any Written.isVerbose
          logFile := lastFile options
          command := .generate directory.text (options.any Written.isSkipCompile) }) ∧
    (∀ (before after : List (Known (.command .clean))) (directory : Operand),
      let options := written pre ++ (written before ++ written after)
      parse (textsOf pre ++ "clean" :: (textsOf before ++ directory.text :: textsOf after)) =
        .ok {
          verbose := options.any Written.isVerbose
          logFile := lastFile options
          command := .clean directory.text }) ∧
    ∀ behind : List (Known (.command .clean)),
      let options := written pre ++ written behind
      parse (textsOf pre ++ "clean" :: textsOf behind) =
        .ok {
          verbose := options.any Written.isVerbose
          logFile := lastFile options
          command := .clean "lib" } := by
  refine ⟨fun before after directory => ?_, fun before after directory => ?_, fun behind => ?_⟩
  · refine parse_around pre before after directory ?_
    simp [commandOf, foldl_note, any_isSkipCompile_program]
  · exact parse_around pre before after directory rfl
  · refine parse_of_read pre (program_classifies_all behind) (ofTexts_all behind)
      (readCommand_all behind {}) ?_
    simp [commandOf, foldl_note, defaultDirectory]

example :
    parse ["-v", "--log-file", "a", "generate", "--log-file", "b", "lib", "--skip-compile"] =
      .ok {
        verbose := true
        logFile := some (Path.ofString "b")
        command := .generate "lib" true } := by
  rfl

end FfiBindings.CommandLine
