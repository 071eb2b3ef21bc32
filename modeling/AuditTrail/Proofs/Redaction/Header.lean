/-
What is left of headers, parameters and bodies.

Names and values come from callers and may be of any type; one that cannot
be used is a fault. Where there is no fault the result is a function of the
entries: headers are kept or dropped by their names (`shownHeaders`,
`visibleHeaders`), and parameters keep their names and lose their values if
they are masked (`shownParams`). Names that are no texts are never told
apart, so a test of names is a predicate on texts (`Decides`). Under text
keys and with values of the declared types there is no fault. A body that is
a text goes through as a text (`bodyValue_text`), and never as an empty one
unless it was empty.
-/
import AuditTrail.Proofs.Record.Writes
import AuditTrail.Proofs.Value.Typed

namespace AuditTrail

open Value (IsText IsHeader)

namespace Redaction

variable {test : Value → Except Fault Bool} {p : Text → Bool} {f : Filter}
  {entries kept : Value.Entries} {v w : Value}

-- ================================================================ names

/-- A test of names that may fail agrees with a predicate on texts wherever
it succeeds, and it succeeds on texts. -/
structure Decides (test : Value → Except Fault Bool) (p : Text → Bool) :
    Prop where
  eq_of_ok {name : Value} {b : Bool} (h : test name = .ok b) :
    b = name.text?.any p
  of_isText {name : Value} (h : name.IsText) :
    test name = .ok (name.text?.any p)

theorem decides_namesAuthorization :
    Decides namesAuthorization isAuthorization where
  eq_of_ok {name b} h := by
    cases name with
    | text s
    | term t
    | bytes octets =>
        cases h
        rfl
    | _ => cases h
  of_isText {name} h := by
    cases name with
    | text s
    | term t => rfl
    | _ => cases h

theorem decides_dropsHeader (f : Filter) :
    Decides (dropsHeader f) f.excludesHeader where
  eq_of_ok {name b} h := by
    cases name with
    | text s
    | term t =>
        cases h
        rfl
    | bytes octets =>
        change (if f.ignoreHeaders.isEmpty then _ else _) = _ at h
        split at h
        · cases h
          rfl
        · cases h
    | _ => cases h
  of_isText {name} h := by
    cases name with
    | text s
    | term t => rfl
    | _ => cases h

theorem decides_masksParam (f : Filter) :
    Decides (masksParam f) f.excludesUrlParam where
  eq_of_ok {name b} h := by
    unfold masksParam at h
    split at h
    case h_1 s _ hs =>
      cases h
      rw [hs]
      rfl
    case h_2 hs =>
      -- without patterns no name is looked at
      rw [hs]
      split at h
      · cases h
        rfl
      · split at h
        · cases h
        · cases h
  of_isText {name} h := by
    cases name with
    | text s
    | term t => rfl
    | _ => cases h

theorem rejectNames_eq_ok (hp : Decides test p)
    (h : rejectNames test entries = .ok kept) :
    kept = entries.filter fun e => !e.1.text?.any p := by
  induction entries generalizing kept with
  | nil =>
      cases h
      rfl
  | cons e rest ih =>
      obtain ⟨rejected, hrejected, h⟩ := exists_of_bind_eq_ok h
      obtain ⟨more, hmore, h⟩ := exists_of_bind_eq_ok h
      cases h
      rw [List.filter_cons, ← hp.eq_of_ok hrejected, ih hmore]
      cases rejected with
      | true => rfl
      | false => rfl

theorem rejectNames_of_isText (hp : Decides test p)
    (h : ∀ e ∈ entries, e.1.IsText) :
    rejectNames test entries
      = .ok (entries.filter fun e => !e.1.text?.any p) := by
  induction entries with
  | nil => rfl
  | cons e rest ih =>
      obtain ⟨he, hrest⟩ := List.forall_mem_cons.mp h
      rw [rejectNames, hp.of_isText he, ih hrest, List.filter_cons]
      cases e.1.text?.any p with
      | true => rfl
      | false => rfl

-- ============================================================== headers

/-- The value of a header as a list: a text alone is a list of one. -/
def listedValue (v : Value) : Value :=
  match v.text? with
  | some _ => .list [v]
  | none => .list (v.items?.getD [])

/-- Headers with their values as lists. -/
def listedHeaders (entries : Value.Entries) : Value.Entries :=
  entries.map fun e => (e.1, listedValue e.2)

theorem headerValues_eq_ok (h : headerValues v = .ok w) :
    w = listedValue v := by
  cases hs : v.text? with
  | some s =>
      rw [headerValues, hs] at h
      rw [listedValue, hs]
      exact (Except.ok.inj h).symm
  | none =>
      rw [headerValues, hs] at h
      obtain ⟨items, hitems, rfl⟩ := exists_of_map_eq_ok h
      rw [listedValue, hs, Value.items_eq_ok_iff.mp hitems]
      rfl

theorem headerValues_of_isHeader (h : v.IsHeader) :
    headerValues v = .ok (listedValue v) := by
  cases h with
  | one hv =>
      obtain ⟨s, hs⟩ := Option.isSome_iff_exists.mp hv
      rw [headerValues, listedValue, hs]
  | several hvs => rfl

theorem eq_listedHeaders_of_listValues (h : listValues entries = .ok kept) :
    kept = listedHeaders entries := by
  induction entries generalizing kept with
  | nil =>
      cases h
      rfl
  | cons e rest ih =>
      obtain ⟨name, v⟩ := e
      obtain ⟨values, hvalues, h⟩ := exists_of_bind_eq_ok h
      obtain ⟨more, hmore, h⟩ := exists_of_bind_eq_ok h
      cases h
      rw [headerValues_eq_ok hvalues, ih hmore]
      rfl

theorem listValues_of_isHeader (h : ∀ e ∈ entries, e.2.IsHeader) :
    listValues entries = .ok (listedHeaders entries) := by
  induction entries with
  | nil => rfl
  | cons e rest ih =>
      obtain ⟨name, v⟩ := e
      obtain ⟨hv, hrest⟩ := List.forall_mem_cons.mp h
      rw [listValues, headerValues_of_isHeader hv, ih hrest]
      rfl

end Redaction

open Redaction

/-- Whether a filter keeps the header with some name. -/
def Filter.keepsHeader (f : Filter) (name : Text) : Bool :=
  !(f.excludeSensitiveHeaders && isAuthorization name)
    && !f.excludesHeader name

/-- What a filter shows of the headers of a REST request: those that it
keeps, with their values as lists. -/
def Filter.shownHeaders (f : Filter) (entries : Value.Entries) :
    Value.Entries :=
  (listedHeaders entries).filter fun e => e.1.text?.all f.keepsHeader

/-- What is shown of the headers of a transport request: those that carry no
credentials. -/
def Redaction.visibleHeaders (entries : Value.Entries) : Value.Entries :=
  entries.filter fun e => !e.1.text?.any isAuthorization

/-- What a filter shows of parameters: all their names, and the values of
those that it does not mask. -/
def Filter.shownParams (f : Filter) (entries : Value.Entries) :
    Value.Entries :=
  entries.map fun e =>
    (e.1, if e.1.text?.any f.excludesUrlParam then .text maskedParam else e.2)

namespace Redaction

variable {f : Filter} {entries kept : Value.Entries} {v : Value}

/-- Dropping credentials and then what the filter drops is one step. -/
theorem filter_filter_keepsHeader (hf : f.excludeSensitiveHeaders = true) :
    (visibleHeaders entries).filter (fun e => !e.1.text?.any f.excludesHeader)
      = entries.filter fun e => e.1.text?.all f.keepsHeader := by
  unfold visibleHeaders
  rw [List.filter_filter]
  refine List.filter_congr fun e _ => ?_
  cases e.1.text? with
  | none => rfl
  | some s =>
      show (!f.excludesHeader s && !isAuthorization s) = f.keepsHeader s
      rw [Filter.keepsHeader, hf, Bool.true_and, Bool.and_comm]

theorem filter_keepsHeader (hf : f.excludeSensitiveHeaders = false) :
    entries.filter (fun e => !e.1.text?.any f.excludesHeader)
      = entries.filter fun e => e.1.text?.all f.keepsHeader := by
  refine List.filter_congr fun e _ => ?_
  cases e.1.text? with
  | none => rfl
  | some s =>
      show (!f.excludesHeader s) = f.keepsHeader s
      rw [Filter.keepsHeader, hf, Bool.false_and, Bool.not_false, Bool.true_and]

theorem restHeaders_eq_ok
    (h : restHeaders v f.excludeSensitiveHeaders (some f) = .ok kept) :
    ∃ entries, v = .map entries ∧ kept = f.shownHeaders entries := by
  cases v with
  | map entries =>
      refine ⟨entries, rfl, ?_⟩
      obtain ⟨_, hsame, h⟩ := exists_of_bind_eq_ok h
      cases hsame
      obtain ⟨listed, hlisted, h⟩ := exists_of_bind_eq_ok h
      unfold Filter.shownHeaders
      rw [← eq_listedHeaders_of_listValues hlisted]
      cases hf : f.excludeSensitiveHeaders with
      | false =>
          rw [hf] at h
          rw [← filter_keepsHeader hf]
          exact rejectNames_eq_ok (decides_dropsHeader f) h
      | true =>
          rw [hf] at h
          obtain ⟨visible, hvisible, h⟩ := exists_of_bind_eq_ok h
          obtain rfl := rejectNames_eq_ok decides_namesAuthorization hvisible
          rw [← filter_filter_keepsHeader hf]
          exact rejectNames_eq_ok (decides_dropsHeader f) h
  | _ => cases h

theorem restHeaders_of_isHeader (hkeys : ∀ e ∈ entries, e.1.IsText)
    (hvalues : ∀ e ∈ entries, e.2.IsHeader) :
    restHeaders (.map entries) f.excludeSensitiveHeaders (some f)
      = .ok (f.shownHeaders entries) := by
  have hnames : ∀ e ∈ listedHeaders entries, e.1.IsText := by
    intro e he
    obtain ⟨d, hd, rfl⟩ := List.mem_map.mp he
    exact hkeys d hd
  unfold Filter.shownHeaders
  show (listValues entries >>= fun listed => _) = _
  rw [listValues_of_isHeader hvalues]
  cases hf : f.excludeSensitiveHeaders with
  | false =>
      rw [← filter_keepsHeader hf]
      exact rejectNames_of_isText (decides_dropsHeader f) hnames
  | true =>
      rw [← filter_filter_keepsHeader hf]
      show (rejectNames namesAuthorization _ >>= fun visible => _) = _
      rw [rejectNames_of_isText decides_namesAuthorization hnames]
      exact rejectNames_of_isText (decides_dropsHeader f) fun e he =>
        hnames e (List.mem_filter.mp he).1

theorem transportHeaders_eq_ok (h : transportHeaders v true = .ok kept) :
    ∃ entries, v = .map entries ∧ kept = visibleHeaders entries := by
  cases v with
  | map entries =>
      exact ⟨entries, rfl, rejectNames_eq_ok decides_namesAuthorization h⟩
  | _ => cases h

-- =========================================================== parameters

theorem urlParams_eq_ok (h : urlParams v (some f) = .ok kept) :
    ∃ entries, v = .map entries ∧ kept = f.shownParams entries := by
  cases v with
  | map entries =>
      refine ⟨entries, rfl, ?_⟩
      change maskEntries f entries = .ok kept at h
      induction entries generalizing kept with
      | nil =>
          cases h
          rfl
      | cons e rest ih =>
          obtain ⟨name, v⟩ := e
          obtain ⟨masked, hmasked, h⟩ := exists_of_bind_eq_ok h
          obtain ⟨more, hmore, h⟩ := exists_of_bind_eq_ok h
          cases h
          rw [(decides_masksParam f).eq_of_ok hmasked, ih hmore]
          rfl
  | _ => cases h

theorem urlParams_of_isText (h : ∀ e ∈ entries, e.1.IsText) :
    urlParams (.map entries) (some f) = .ok (f.shownParams entries) := by
  show maskEntries f entries = _
  induction entries with
  | nil => rfl
  | cons e rest ih =>
      obtain ⟨name, v⟩ := e
      obtain ⟨hname, hrest⟩ := List.forall_mem_cons.mp h
      rw [maskEntries, (decides_masksParam f).of_isText hname, ih hrest]
      rfl

-- =============================================================== bodies

/-- A body of any type as a record shows it: it is replaced as a whole where
the path leads to an endpoint that administers accounts and the body
mentions a password. -/
def shownBody (path body : Value) : Value :=
  if path.text?.any isSensitivePath
      && (mentionsPasswordValue body).toOption == some true then
    .text bodyPlaceholder
  else body

theorem sensitivePathValue_eq_ok {path : Value} {b : Bool}
    (h : sensitivePathValue path = .ok b) :
    b = path.text?.any isSensitivePath := by
  cases path with
  | null
  | text s
  | term t =>
      cases h
      rfl
  | _ => cases h

theorem bodyValue_eq_ok {path body shown : Value}
    (h : bodyValue path body = .ok shown) : shown = shownBody path body := by
  unfold bodyValue at h
  unfold shownBody
  split at h
  case h_1 =>
    cases h
    have hnull : (mentionsPasswordValue .null).toOption = none := rfl
    rw [hnull]
    simp
  case h_2 =>
    obtain ⟨sensitive, hsensitive, h⟩ := exists_of_bind_eq_ok h
    rw [← sensitivePathValue_eq_ok hsensitive]
    cases sensitive with
    | false =>
        cases h
        rfl
    | true =>
        obtain ⟨mentions, hmentions, h⟩ := exists_of_bind_eq_ok h
        rw [hmentions]
        cases h
        cases mentions with
        | true => rfl
        | false => rfl

/-- A body that is a text is replaced as a whole or stays as it is. -/
theorem bodyValue_of_text? {path body : Value} {s : Text}
    (hpath : path.IsOptionalText) (hs : body.text? = some s) :
    bodyValue path body
      = .ok (if path.text?.any isSensitivePath && mentionsPassword s then
          .text bodyPlaceholder else body) := by
  have hsensitive : sensitivePathValue path
      = .ok (path.text?.any isSensitivePath) := by
    rcases hpath with rfl | hpath
    · rfl
    · cases path with
      | text p
      | term t => rfl
      | _ => cases hpath
  have hmentions : mentionsPasswordValue body = .ok (mentionsPassword s) := by
    unfold mentionsPasswordValue
    rw [hs]
  unfold bodyValue
  split
  case h_1 => cases hs
  case h_2 =>
    rw [hsensitive]
    dsimp only [bind, Except.bind]
    cases path.text?.any isSensitivePath with
    | false => rfl
    | true =>
        rw [if_pos rfl, hmentions, Bool.true_and]

theorem bodyValue_text {path : Value} {s : Text}
    (hpath : path.IsOptionalText) :
    bodyValue path (.text s) = .ok (.text (redactBody path.text? s)) := by
  rw [bodyValue_of_text? hpath rfl, redactBody, apply_ite Value.text]

theorem redactBody_nil (path : Option Text) : redactBody path [] = [] := by
  unfold redactBody
  rw [if_neg]
  rw [show mentionsPassword [] = false by decide, Bool.and_false]
  decide

/-- Redaction leaves something of every body. -/
theorem redactBody_ne_nil {path : Option Text} {s : Text} (hs : s ≠ []) :
    redactBody path s ≠ [] := by
  unfold redactBody
  split
  · decide
  · exact hs

end Redaction

end AuditTrail
