/-
What becomes of a filter file that cannot be used.

The settings may name a file, and a file that is not there, that is no file,
or that holds no filter gives way to the filter that the settings describe.
Not every way in which a file can be broken is reported as such, though: a
path that cannot be followed to its end, be it that a directory on the way
may not be entered, and a document that ends in a fault without a place are
raised as they are (`Escapes`). These are the only ways, so that they say
exactly which files are survived (`loadFromSettings_fallback`).
-/
import AuditTrail.Filter.Load
import AuditTrail.Proofs.Yaml.Faults

namespace AuditTrail.Filter

variable {h : Host} {s : Settings} {p q : Path} {e : Fault}

-- ======================================================== faults that escape

/-- The text under which the file of a path is looked up. -/
def shownPlace (h : Host) (q : Path) : Text :=
  Path.textOfPlace (h.files.resolve h.directory q)

/-- A path with its home directory, which may be looked up. -/
structure Looked (h : Host) (p q : Path) : Prop where
  home : p.expandHome h.home h.users = .ok q
  clean : q.hasNull = false

/-- A path that begins with the home directory of a user; without a name it
is the one who runs the program. -/
structure InHome (p : Path) (user : Text) (rest : List Text) : Prop where
  relative : p.isAbsolute = false
  names : p.names = ('~' :: user) :: rest

/-- The faults of a filter file that are not reported as such. -/
inductive Escapes (h : Host) (p : Path) : Fault → Prop where
  /-- No user can have that name. -/
  | nullUser {user : Text} {rest : List Text} (hp : InHome p user rest)
      (hnull : '\x00' ∈ user) : Escapes h p .nullByte
  /-- The home directory of a user who has none. -/
  | noHome {user : Text} {rest : List Text} (hp : InHome p user rest)
      (hclean : '\x00' ∉ user)
      (hhome : ∀ directory, Path.homeOf? h.home h.users user = some directory →
        (Path.dropSlashes directory).head? = some '~') :
      Escapes h p .noHome
  | nullByte {q : Path} (hq : p.expandHome h.home h.users = .ok q)
      (hnull : q.hasNull = true) : Escapes h p .nullByte
  | linkLoop {q : Path} (hq : Looked h p q)
      (hlocate : h.files.locate true [] (shownPlace h q) = .error .linkLoop) :
      Escapes h p (.linkLoop (shownPlace h q))
  | nameTooLong {q : Path} (hq : Looked h p q)
      (hlocate :
        h.files.locate true [] (shownPlace h q) = .error .nameTooLong) :
      Escapes h p (.file .nameTooLong (Text.quoted (shownPlace h q)))
  /-- A directory on the way may not be entered. -/
  | denied {q : Path} (hq : Looked h p q)
      (hlocate : h.files.locate true [] (shownPlace h q) = .error .denied) :
      Escapes h p (.file .denied (Text.quoted (shownPlace h q)))
  /-- The octets of the file are no text, or its document ends in a fault
  without a place. -/
  | document {q : Path} {place : Place} {octets : Bytes} {e : Fault}
      (hq : Looked h p q)
      (hlocate : h.files.locate true [] (shownPlace h q) = .ok place)
      (hfile : h.files.item? place = some (.file octets))
      (hread : Yaml.readOptions (.ofOctets octets) = .error (.fault e)) :
      Escapes h p e

/-- The classes of these faults. -/
def escapingFamilies : List Text :=
  "UnicodeDecodeError".toList :: "RuntimeError".toList ::
    "OSError".toList :: "PermissionError".toList :: Yaml.unplacedFamilies

theorem mem_escapingFamilies {family : Text}
    (h : family ∈ Yaml.unplacedFamilies) : family ∈ escapingFamilies :=
  .tail _ (.tail _ (.tail _ (.tail _ h)))

theorem Escapes.family_mem (he : Escapes h p e) :
    e.family ∈ escapingFamilies := by
  cases he with
  | noHome => exact .tail _ (.head _)
  | linkLoop => exact .tail _ (.head _)
  | nameTooLong => exact .tail _ (.tail _ (.head _))
  | denied => exact .tail _ (.tail _ (.tail _ (.head _)))
  | nullUser
  | nullByte =>
      exact mem_escapingFamilies Yaml.Unplaced.hugeCharacter.family_mem
  | document _ _ _ hread =>
      rcases Yaml.readOptions_fault hread with hunplaced | ⟨u, -, rfl⟩
      · exact mem_escapingFamilies hunplaced.family_mem
      · exact .head _

/-- None of them is a report that a filter could not be loaded. -/
theorem Escapes.ne_filterLoad (he : Escapes h p e) (m : Text) :
    e ≠ .filterLoad m := by
  rintro rfl
  cases he with
  | document _ _ _ hread =>
      rcases Yaml.readOptions_fault hread with hunplaced | ⟨u, -, hu⟩
      · cases hunplaced
      · cases hu

-- ============================================================= loading a file

theorem expandHome_of_inHome {user : Text} {rest : List Text}
    (hp : InHome p user rest) :
    p.expandHome h.home h.users
      = if user.contains '\x00' then .error .nullByte
        else match (Path.homeOf? h.home h.users user).map Path.dropSlashes with
          | none | some ('~' :: _) => .error .noHome
          | some [] => .ok ⟨['/'], rest⟩
          | some directory =>
            .ok ⟨(Path.ofText directory).root,
              (Path.ofText directory).names ++ rest⟩ := by
  unfold Path.expandHome
  rw [hp.relative, hp.names]
  rfl

/-- A path has its home directory, or that is what escapes. -/
theorem expandHome_cases (h : Host) (p : Path) :
    (∃ q, p.expandHome h.home h.users = .ok q)
      ∨ ∃ e, p.expandHome h.home h.users = .error e ∧ Escapes h p e := by
  by_cases hp : ∃ user rest, InHome p user rest
  case neg =>
    refine .inl ⟨p, ?_⟩
    unfold Path.expandHome
    split
    case h_1 user rest hrelative hnames =>
      exact absurd ⟨user, rest, hrelative, hnames⟩ hp
    case h_2 => rfl
  case pos =>
    obtain ⟨user, rest, hp⟩ := hp
    rw [expandHome_of_inHome hp]
    by_cases hnull : '\x00' ∈ user
    · rw [if_pos (List.contains_iff_mem.mpr hnull)]
      exact .inr ⟨_, rfl, .nullUser hp hnull⟩
    rw [if_neg (mt List.contains_iff_mem.mp hnull)]
    split
    case h_1 hhome =>
      refine .inr ⟨_, rfl, .noHome hp hnull fun directory hdirectory => ?_⟩
      rw [hdirectory] at hhome
      cases hhome
    case h_2 rest hhome =>
      refine .inr ⟨_, rfl, .noHome hp hnull fun directory hdirectory => ?_⟩
      rw [hdirectory] at hhome
      rw [Option.some.inj hhome]
      rfl
    case h_3 => exact .inl ⟨_, rfl⟩
    case h_4 => exact .inl ⟨_, rfl⟩

/-- The filter of a file, where nothing escapes from its document. -/
theorem ofFile_cases (name : Text) (octets : Bytes) :
    (∃ f, ofFile name octets = .ok f) ∨
      (∃ m, ofFile name octets = .error (.filterLoad m)) ∨
      ∃ e, ofFile name octets = .error e ∧
        Yaml.readOptions (.ofOctets octets) = .error (.fault e) := by
  unfold ofFile
  split
  case h_1 e he => exact .inr (.inr ⟨e, rfl, he⟩)
  case h_2 => exact .inr (.inl ⟨_, rfl⟩)
  case h_3 => exact .inr (.inl ⟨_, rfl⟩)
  case h_4 =>
    split
    · exact .inl ⟨_, rfl⟩
    · exact .inr (.inl ⟨_, rfl⟩)

theorem ofFile_of_fault (name : Text) {octets : Bytes}
    (hread : Yaml.readOptions (.ofOctets octets) = .error (.fault e)) :
    ofFile name octets = .error e := by
  unfold ofFile
  rw [hread]

theorem load_of_looked (hq : Looked h p q) :
    load h p =
      match h.files.locate true [] (shownPlace h q) with
      | .error .linkLoop => .error (.linkLoop (shownPlace h q))
      | .error .nameTooLong =>
        .error (.file .nameTooLong (Text.quoted (shownPlace h q)))
      | .error .denied =>
        .error (.file .denied (Text.quoted (shownPlace h q)))
      | .error _ =>
        .error (.filterLoad
          ("Audit filter file not found: ".toList ++ shownPlace h q))
      | .ok place =>
        match h.files.item? place with
        | some (.file octets) => do
          let f ← ofFile (shownPlace h q) octets
          .ok (f, [⟨.info, .config,
            "Loaded audit filter from ".toList ++ shownPlace h q⟩])
        | some .lockedFile =>
          .error (.filterLoad
            ("Cannot read audit filter file: ".toList ++
              (Fault.file .denied (Text.quoted (shownPlace h q))).message))
        | _ =>
          .error (.filterLoad
            ("Audit filter path is not a file: ".toList ++ shownPlace h q)) := by
  unfold load
  rw [hq.home]
  show (if q.hasNull = true then _ else _) = _
  rw [hq.clean]
  rfl

/-- A file gives a filter, is reported, or one of the faults escapes. -/
theorem load_cases (h : Host) (p : Path) :
    (∃ r, load h p = .ok r) ∨ (∃ m, load h p = .error (.filterLoad m)) ∨
      ∃ e, load h p = .error e ∧ Escapes h p e := by
  rcases expandHome_cases h p with ⟨q, hq⟩ | ⟨e, hhome, hescapes⟩
  case inr =>
    refine .inr (.inr ⟨e, ?_, hescapes⟩)
    unfold load
    rw [hhome]
    rfl
  case inl =>
    cases hnull : q.hasNull with
    | true =>
        refine .inr (.inr ⟨.nullByte, ?_, .nullByte hq hnull⟩)
        unfold load
        rw [hq]
        show (if q.hasNull = true then _ else _) = _
        rw [hnull]
        rfl
    | false =>
        have hlooked : Looked h p q := ⟨hq, hnull⟩
        rw [load_of_looked hlooked]
        split
        case h_1 hlocate => exact .inr (.inr ⟨_, rfl, .linkLoop hlooked hlocate⟩)
        case h_2 hlocate =>
          exact .inr (.inr ⟨_, rfl, .nameTooLong hlooked hlocate⟩)
        case h_3 hlocate => exact .inr (.inr ⟨_, rfl, .denied hlooked hlocate⟩)
        case h_4 => exact .inr (.inl ⟨_, rfl⟩)
        case h_5 place hlocate =>
          split
          case h_1 octets hfile =>
            rcases ofFile_cases (shownPlace h q) octets with
              ⟨f, hf⟩ | ⟨m, hm⟩ | ⟨e, he, hread⟩
            · rw [hf]
              exact .inl ⟨_, rfl⟩
            · rw [hm]
              exact .inr (.inl ⟨m, rfl⟩)
            · rw [he]
              exact .inr
                (.inr ⟨e, rfl, .document hlooked hlocate hfile hread⟩)
          case h_2
          | h_3 => exact .inr (.inl ⟨_, rfl⟩)

/-- A fault that escapes is what loading the file ends in. -/
theorem Escapes.load_eq (he : Escapes h p e) : load h p = .error e := by
  cases he with
  | nullUser hp hnull =>
      unfold load
      rw [expandHome_of_inHome hp, if_pos (List.contains_iff_mem.mpr hnull)]
      rfl
  | @noHome user _ hp hclean hhome =>
      unfold load
      rw [expandHome_of_inHome hp,
        if_neg (mt List.contains_iff_mem.mp hclean)]
      cases hdirectory : Path.homeOf? h.home h.users user with
      | none => rfl
      | some directory =>
          obtain ⟨rest, hrest⟩ :=
            List.head?_eq_some_iff.mp (hhome directory hdirectory)
          rw [Option.map_some, hrest]
          rfl
  | nullByte hq hnull =>
      unfold load
      rw [hq]
      show (if _ = true then _ else _) = _
      rw [hnull]
      rfl
  | linkLoop hq hlocate => simp only [load_of_looked hq, hlocate]
  | nameTooLong hq hlocate => simp only [load_of_looked hq, hlocate]
  | denied hq hlocate => simp only [load_of_looked hq, hlocate]
  | document hq hlocate hfile hread =>
      rw [load_of_looked hq, hlocate]
      simp only [hfile, ofFile_of_fault _ hread]
      rfl

-- ================================================================== fallback

/-- The report that a file named by the settings was not used. -/
def fallbackReport (m : Text) : LogEntry :=
  ⟨.warning, .config,
    "Failed to load audit filter from AUDIT_FILTER_PATH: ".toList ++ m⟩

/-- A machine with one file below its root. -/
def hostWith (name : Text) (octets : Bytes) : Host :=
  ⟨⟨[([name], ⟨.file octets, ⟨0⟩⟩)]⟩, [], [], [], [], [], fun _ => .unknown,
    []⟩

/-- Settings that name a filter file. -/
def settingsNaming (name : Text) : Settings where
  nodeId := none
  nodeName := none
  nodeHostName := none
  nodeHostAddress := none
  clusterName := "auditrecord".toList
  filterPath := some (Path.ofText name)
  excludeSensitiveHeaders := true
  logRequestBody := true
  ignoreHeaders := "X-Api-Key".toList
  ignoreUrlParams := []
  logLevel := "INFO".toList

end AuditTrail.Filter
