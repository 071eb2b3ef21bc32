/-
What the headers and parameters of a record give away.

There are three maps of headers and parameters in a record (`Channel`), and
each of them is replaced as a whole. An operation that is told to protect
them (`Guarded`) settles each map (`Settles`): it records what is to be
shown of the entries that it was given, nothing more and nothing less, or it
records nothing, and then there was nothing to record or it failed. Along a
run the last operation that records a map decides it (`exact_run`), so a
record shows exactly what may be shown of the last map, and what may not be
shown is in none.
-/
import AuditTrail.Proofs.Record.NormalForm
import AuditTrail.Proofs.Redaction.Header

namespace AuditTrail

open Redaction

-- ===================================================== outcomes and fields

namespace Outcome

variable {field : Field} {due : Option Value} {a b o : Outcome}

/-- Nothing is written to a field. -/
def Avoids (field : Field) (o : Outcome) : Prop :=
  o.Every fun w => w.1 ≠ field

/-- A field is settled by a value that is due to it: the value is written,
and no other one; or nothing is written, and if a value was due there is a
fault. -/
inductive Settles (field : Field) (due : Option Value) (o : Outcome) : Prop
  | recorded {v : Value} (hdue : due = some v)
      (hsome : ∃ w ∈ o.writes, w.1 = field)
      (hall : o.Every fun w => w.1 = field → w.2 = v)
  | skipped (havoids : o.Avoids field)
      (hfault : due.isSome = true → o.fault.isSome = true)

theorem settles_of_avoids (h : o.Avoids field) : o.Settles field none :=
  .skipped h fun hdue => absurd hdue Bool.false_ne_true

theorem andThen_of_some {e : Fault} (h : a.fault = some e) :
    a.andThen b = a := by
  unfold andThen
  rw [h]

theorem andThen_of_none (h : a.fault = none) :
    a.andThen b = ⟨a.writes ++ b.writes, b.fault, a.logs ++ b.logs⟩ := by
  unfold andThen
  rw [h]

/-- What comes before leaves a field to what comes after. -/
theorem Settles.andThen_right (ha : a.Avoids field)
    (hb : b.Settles field due) : (a.andThen b).Settles field due := by
  cases hfault : a.fault with
  | some e =>
      rw [andThen_of_some hfault]
      exact .skipped ha fun _ => by rw [hfault]; rfl
  | none =>
      rw [andThen_of_none hfault]
      cases hb with
      | recorded hdue hsome hall =>
          obtain ⟨w, hw, hwf⟩ := hsome
          refine .recorded hdue ⟨w, List.mem_append_right _ hw, hwf⟩ ?_
          intro w hw hwf
          rcases List.mem_append.mp hw with hw | hw
          · exact absurd hwf (ha w hw)
          · exact hall w hw hwf
      | skipped havoids hfault =>
          refine .skipped (fun w hw => ?_) hfault
          exact (List.mem_append.mp hw).elim (ha w) (havoids w)

/-- And what comes after changes nothing about it. -/
theorem Settles.andThen_left (ha : a.Settles field due)
    (hb : b.Avoids field) : (a.andThen b).Settles field due := by
  cases hfault : a.fault with
  | some e =>
      rw [andThen_of_some hfault]
      exact ha
  | none =>
      rw [andThen_of_none hfault]
      cases ha with
      | recorded hdue hsome hall =>
          obtain ⟨w, hw, hwf⟩ := hsome
          refine .recorded hdue ⟨w, List.mem_append_left _ hw, hwf⟩ ?_
          intro w hw hwf
          rcases List.mem_append.mp hw with hw | hw
          · exact hall w hw hwf
          · exact absurd hwf (hb w hw)
      | skipped havoids hdue =>
          rw [hfault] at hdue
          refine .skipped (fun w hw => ?_) fun h => absurd (hdue h) (by simp)
          exact (List.mem_append.mp hw).elim (havoids w) (hb w)

end Outcome

-- ============================================================= channels

/-- The entries of a value that is a map. -/
def Value.entries? : Value → Option Value.Entries
  | .map entries => some entries
  | _ => none

/-- Parameters with the one that carries a body shown like a body, if it is
present. -/
def Redaction.shownSource (path : Value) : Value.Entries → Value.Entries
  | [] => []
  | e :: rest =>
      if e.1.text? = some Request.sourceParam then
        (e.1, if e.2.truthy then shownBody path e.2 else e.2) :: rest
      else e :: shownSource path rest

/-- A map of headers or parameters in a record. -/
inductive Channel where
  | restHeaders
  | transportHeaders
  | params

namespace Channel

/-- The field that holds the map. -/
def field : Channel → Field
  | restHeaders => .restRequestHeaders
  | transportHeaders => .transportRequestHeaders
  | params => .restRequestParams

/-- The entries that an operation is given for the map. -/
def given : Channel → Call → Option Value.Entries
  | restHeaders, .headers v _ _ => v.entries?
  | restHeaders, .request (.request q) _ => q.headers.entries?
  | transportHeaders, .transportHeaders v _ => v.entries?
  | params, .params v _ => v.entries?
  | params, .request (.request q) _ => q.params.toEntries.toOption
  | _, _ => none

/-- The entries that an operation is to record, if there are any. -/
def offered (ch : Channel) (c : Call) : Option Value.Entries :=
  (ch.given c).filter fun entries => !entries.isEmpty

/-- What is shown of the entries that an operation is given. -/
def shown (f : Filter) : Channel → Call → Value.Entries → Value.Entries
  | restHeaders, _, entries => f.shownHeaders entries
  | transportHeaders, _, entries => visibleHeaders entries
  | params, .request (.request q) _, entries =>
      f.shownParams (shownSource q.path entries)
  | params, _, entries => f.shownParams entries

/-- What an operation has to write to the field. -/
def due (ch : Channel) (f : Filter) (c : Call) : Option Value :=
  (ch.offered c).map fun entries => .map (ch.shown f c entries)

/-- An operation leaves the map as it is: it writes nothing to the field,
and fails if it was given something to write. -/
structure Skips (ch : Channel) (h : Host) (node : Value) (c : Call) :
    Prop where
  avoids : ∀ w ∈ (c.outcome h node).writes, w.1 ≠ ch.field
  fault : (ch.offered c).isSome = true →
    (c.outcome h node).fault.isSome = true

/-- After a run a record shows of one map what may be shown of the last one
that was recorded, all of it and in its order; or none was. -/
inductive Exact (ch : Channel) (h : Host) (f : Filter) (r : Record) :
    List Call → Prop
  | unset {cs : List Call} (hnone : (r.run h cs).get? ch.field = none)
      (hskips : ∀ c ∈ cs, ch.Skips h r.node c) : Exact ch h f r cs
  | last (before : List Call) (c : Call) (after : List Call)
      {entries : Value.Entries} (hoffered : ch.offered c = some entries)
      (hshown : (r.run h (before ++ c :: after)).get? ch.field
        = some (.map (ch.shown f c entries)))
      (hskips : ∀ d ∈ after, ch.Skips h r.node d) :
      Exact ch h f r (before ++ c :: after)

end Channel

/-- An operation protects headers and parameters: authorization is dropped
from headers, and REST operations are given a filter. -/
def Call.Guarded (f : Filter) : Call → Prop
  | .transportHeaders _ exclude => exclude.truthy = true
  | .headers _ exclude filter => exclude.truthy = true ∧ filter = .given f
  | .params _ filter
  | .request _ filter => filter = .given f
  | _ => True

/-- Nothing that a filter protects is in a record: no header with
credentials, no header that the filter drops, and no value of a parameter
that the filter masks. -/
structure Record.Confidential (f : Filter) (r : Record) : Prop where
  restHeaders : ∀ entries, r.get? .restRequestHeaders = some (.map entries) →
    ∀ e ∈ entries, ∀ name, e.1.text? = some name →
      isAuthorization name = false ∧ f.excludesHeader name = false
  transportHeaders :
    ∀ entries, r.get? .transportRequestHeaders = some (.map entries) →
      ∀ e ∈ entries, ∀ name, e.1.text? = some name →
        isAuthorization name = false
  params : ∀ entries, r.get? .restRequestParams = some (.map entries) →
    ∀ e ∈ entries, ∀ name, e.1.text? = some name →
      f.excludesUrlParam name = true → e.2 = .text maskedParam

-- =========================================================== operations

namespace Channel

variable {ch : Channel} {h : Host} {node v path : Value} {f : Filter}
  {c : Call} {field : Field} {q : Request} {entries : Value.Entries}

/-- A map is written as a whole, or there is a fault; an empty one is not
written. -/
theorem settles_of_shown {kept : Except Fault Value.Entries}
    {g : Value.Entries → Value.Entries}
    (hkept : ∀ out, kept = .ok out →
      ∃ entries, v = .map entries ∧ out = g entries) :
    (Outcome.of (Call.ifPresent v
      (kept >>= fun out => .ok [(field, .map out)]))).Settles field
      ((v.entries?.filter fun entries => !entries.isEmpty).map fun entries =>
        .map (g entries)) := by
  cases htruthy : v.truthy with
  | false =>
      have hnone : (v.entries?.filter fun entries => !entries.isEmpty)
          = none := by
        cases v with
        | map entries =>
            obtain rfl : entries = [] := by simpa [Value.truthy] using htruthy
            rfl
        | _ => rfl
      rw [hnone]
      refine Outcome.settles_of_avoids (EveryWrite.outcome ?_)
      refine Call.everyWrite_ifPresent fun hpresent => ?_
      rw [htruthy] at hpresent
      cases hpresent
  | true =>
      rw [Call.ifPresent_of_truthy htruthy]
      cases kept with
      | error e => exact .skipped (Outcome.every_of_nil rfl) fun _ => rfl
      | ok out =>
          obtain ⟨entries, rfl, rfl⟩ := hkept out rfl
          have hsome : (Value.entries? (.map entries)).filter
              (fun entries => !entries.isEmpty) = some entries :=
            Option.filter_eq_some_iff.mpr ⟨rfl, htruthy⟩
          rw [hsome]
          refine .recorded rfl ⟨_, List.mem_singleton_self _, rfl⟩ ?_
          exact List.forall_mem_singleton.mpr fun _ => rfl

theorem settles_writeHeaders (hf : f.excludeSensitiveHeaders = true) :
    (Outcome.of (Call.writeHeaders v true (.given f))).Settles
      .restRequestHeaders
      ((v.entries?.filter fun entries => !entries.isEmpty).map fun entries =>
        .map (f.shownHeaders entries)) :=
  settles_of_shown fun _ hout => restHeaders_eq_ok (by rw [hf]; exact hout)

theorem settles_writeParams :
    (Outcome.of (Call.writeParams v (.given f))).Settles .restRequestParams
      ((v.entries?.filter fun entries => !entries.isEmpty).map fun entries =>
        .map (f.shownParams entries)) :=
  settles_of_shown fun _ hout => urlParams_eq_ok hout

theorem put_sourceParam {source : Value} (hpresent : source.truthy = true)
    (hsource : Value.lookupText entries Request.sourceParam = some source) :
    Value.put false entries (.text Request.sourceParam) (shownBody path source)
      = shownSource path entries := by
  induction entries with
  | nil => cases hsource
  | cons e rest ih =>
      rw [Value.lookupText, Value.lookup, List.find?_cons,
        Value.same_ofText] at hsource
      rw [Value.put, shownSource, Value.same_ofText]
      by_cases he : e.1.text? = some Request.sourceParam
      · rw [he, beq_self_eq_true] at hsource
        obtain rfl : e.2 = source := Option.some.inj hsource
        rw [if_pos he, if_pos (beq_iff_eq.mpr he), if_pos hpresent]
      · rw [beq_false_of_ne he] at hsource
        rw [if_neg he, if_neg (by simpa using he), ih hsource]

theorem shownSource_of_lookupText
    (h : ∀ source, Value.lookupText entries Request.sourceParam = some source →
      source.truthy = false) : shownSource path entries = entries := by
  induction entries with
  | nil => rfl
  | cons e rest ih =>
      rw [shownSource]
      simp only [Value.lookupText, Value.lookup, List.find?_cons,
        Value.same_ofText] at h ih
      by_cases he : e.1.text? = some Request.sourceParam
      · rw [he, beq_self_eq_true] at h
        rw [if_pos he, h e.2 rfl]
        rfl
      · rw [beq_false_of_ne he] at h
        rw [if_neg he, ih h]

/-- The parameters of a request are its own, the one that carries a body
shown like a body. -/
theorem redactedParams_eq_ok (h : Call.redactedParams q = .ok entries) :
    ∃ given, q.params.toEntries = .ok given
      ∧ entries = shownSource q.path given := by
  obtain ⟨given, hgiven, h⟩ := exists_of_bind_eq_ok h
  refine ⟨given, hgiven, ?_⟩
  split at h
  case h_1 hnone =>
    cases h
    rw [shownSource_of_lookupText fun source hsource => ?_]
    rw [hnone] at hsource
    cases hsource
  case h_2 source hsource =>
    obtain ⟨present, hpresent, h⟩ := exists_of_bind_eq_ok h
    obtain ⟨-, htruthy⟩ := Value.truth_eq_ok_iff.mp hpresent
    cases present with
    | true =>
        obtain ⟨shown, hshown, h⟩ := exists_of_bind_eq_ok h
        cases h
        rw [bodyValue_eq_ok hshown, put_sourceParam htruthy hsource]
    | false =>
        cases h
        rw [shownSource_of_lookupText fun source' hsource' => ?_]
        rw [hsource] at hsource'
        cases hsource'
        exact htruthy

theorem isEmpty_shownSource :
    (shownSource path entries).isEmpty = entries.isEmpty := by
  cases entries with
  | nil => rfl
  | cons e rest =>
      rw [shownSource]
      split
      · rfl
      · rfl

-- what an operation has nothing to do with

theorem settles_of_notMem (hfield : ch.field ∉ c.fields)
    (hgiven : ch.given c = none) :
    (c.outcome h node).Settles ch.field (ch.due f c) := by
  have hdue : ch.due f c = none := by
    unfold due offered
    rw [hgiven]
    rfl
  rw [hdue]
  refine Outcome.settles_of_avoids fun w hw hwf => hfield ?_
  exact hwf ▸ Call.outcome_fields h node c w hw

/-- Of a request each map is settled by its own part; the other parts leave
it alone, and one that fails leaves what comes after it unwritten. -/
theorem settles_request (hf : f.excludeSensitiveHeaders = true)
    (ch : Channel) (q : Request) :
    ((Call.request (.request q) (.given f)).outcome h node).Settles ch.field
      (ch.due f (.request (.request q) (.given f))) := by
  cases ch with
  | transportHeaders =>
      exact settles_of_notMem (by simp [field, Call.fields]) rfl
  | restHeaders =>
      refine Outcome.Settles.andThen_left ?_
        (Call.every_writeLoggedBody fun _ _ _ => by simp [field])
      unfold Call.writeRequestHead
      split
      case h_1 => exact .skipped (Outcome.every_of_nil rfl) fun _ => rfl
      case h_2 entries hentries =>
        rw [hf]
        refine Outcome.Settles.andThen_right ?_
          (Outcome.Settles.andThen_left (settles_writeHeaders hf) ?_)
        · exact (Call.everyWrite_writePresent fun _ _ => by simp [field]).outcome
        · refine Outcome.Every.andThen ?_ ?_
          · exact (Call.everyWrite_writeParams fun _ _ _ => by simp [field]).outcome
          · exact (Call.everyWrite_writeMethod fun _ => by simp [field]).outcome
  | params =>
      refine Outcome.Settles.andThen_left ?_
        (Call.every_writeLoggedBody fun _ _ _ => by simp [field])
      unfold Call.writeRequestHead
      split
      case h_1 => exact .skipped (Outcome.every_of_nil rfl) fun _ => rfl
      case h_2 entries hentries =>
        obtain ⟨given, hgiven, rfl⟩ := redactedParams_eq_ok hentries
        have hdue : Channel.due .params f (.request (.request q) (.given f))
            = ((Value.entries? (.map (shownSource q.path given))).filter
                fun entries => !entries.isEmpty).map fun entries =>
                  .map (f.shownParams entries) := by
          have hoffered : Channel.offered .params
              (.request (.request q) (.given f))
                = (some given).filter fun entries => !entries.isEmpty := by
            show q.params.toEntries.toOption.filter _ = _
            rw [hgiven]
            rfl
          rw [due, hoffered, Value.entries?, Option.filter_some,
            Option.filter_some, isEmpty_shownSource]
          split
          · rfl
          · rfl
        rw [hdue]
        refine Outcome.Settles.andThen_right ?_
          (Outcome.Settles.andThen_right ?_
            (Outcome.Settles.andThen_left settles_writeParams ?_))
        · exact (Call.everyWrite_writePresent fun _ _ => by simp [field]).outcome
        · exact (Call.everyWrite_writeHeaders fun _ _ _ => by simp [field]).outcome
        · exact (Call.everyWrite_writeMethod fun _ => by simp [field]).outcome

/-- An operation that is told to protect headers and parameters settles each
of the maps. -/
theorem settles_outcome (hf : f.excludeSensitiveHeaders = true)
    (hc : c.Guarded f) (ch : Channel) :
    (c.outcome h node).Settles ch.field (ch.due f c) := by
  cases c with
  | transportHeaders v exclude =>
      cases ch with
      | transportHeaders =>
          have hexclude : exclude.truthy = true := hc
          rw [Call.outcome, Call.writeTransportHeaders,
            Value.truth_eq_true_iff.mpr hexclude]
          exact settles_of_shown fun _ hout => transportHeaders_eq_ok hout
      | _ => exact settles_of_notMem (by simp [field, Call.fields]) rfl
  | headers v exclude filter =>
      cases ch with
      | restHeaders =>
          obtain ⟨hexclude, rfl⟩ := hc
          rw [Call.outcome, Call.writeHeadersUnless,
            Value.truth_eq_true_iff.mpr hexclude]
          exact settles_writeHeaders hf
      | _ => exact settles_of_notMem (by simp [field, Call.fields]) rfl
  | params v filter =>
      cases ch with
      | params =>
          obtain rfl : filter = .given f := hc
          exact settles_writeParams
      | _ => exact settles_of_notMem (by simp [field, Call.fields]) rfl
  | request a filter =>
      obtain rfl : filter = .given f := hc
      cases a with
      | request q => exact settles_request hf ch q
      | _ =>
          cases ch <;> exact Outcome.settles_of_avoids Call.every_refused
  | _ => cases ch <;> exact settles_of_notMem (by simp [field, Call.fields]) rfl

-- ================================================================ runs

variable {r : Record} {cs : List Call}

/-- By induction from the last operation on: it decides a map if it records
it, and otherwise the run before it does. -/
theorem exact_run (hf : f.excludeSensitiveHeaders = true)
    (hnone : r.get? ch.field = none) (hcs : ∀ c ∈ cs, c.Guarded f) :
    ch.Exact h f r cs := by
  induction cs using List.reverseRecOn with
  | nil => exact .unset hnone fun c hc => absurd hc List.not_mem_nil
  | append_singleton cs c ih =>
      obtain ⟨hbefore, hlast⟩ := List.forall_mem_append.mp hcs
      have hc : c.Guarded f := hlast c (List.mem_singleton_self c)
      have hrun : r.run h (cs ++ [c])
          = (r.run h cs).putAll (c.outcome h r.node).writes := by
        rw [Record.run_append, ← Record.outcome_run h r cs c]
        rfl
      have hsettles : (c.outcome h r.node).Settles ch.field (ch.due f c) :=
        settles_outcome hf hc ch
      cases hsettles with
      | recorded hdue hsome hall =>
          obtain ⟨entries, hoffered, rfl⟩ := Option.map_eq_some_iff.mp hdue
          refine .last cs c [] hoffered ?_ fun d hd =>
            absurd hd List.not_mem_nil
          rw [hrun]
          exact Record.get?_putAll_of_forall hsome hall
      | skipped havoids hfault =>
          have hskips : ch.Skips h r.node c := by
            refine ⟨havoids, fun hoffered => hfault ?_⟩
            rw [due, Option.isSome_map]
            exact hoffered
          have hsame : (r.run h (cs ++ [c])).get? ch.field
              = (r.run h cs).get? ch.field := by
            rw [hrun]
            exact Record.get?_putAll_of_ne havoids
          cases ih hbefore with
          | unset hunset hall =>
              refine .unset (hsame.trans hunset) ?_
              exact List.forall_mem_append.mpr
                ⟨hall, List.forall_mem_singleton.mpr hskips⟩
          | last before d after hoffered hshown hall =>
              rw [List.append_assoc, List.cons_append] at hsame ⊢
              refine .last before d (after ++ [c]) hoffered
                (hsame.trans hshown) ?_
              exact List.forall_mem_append.mpr
                ⟨hall, List.forall_mem_singleton.mpr hskips⟩

theorem Exact.eq_shown {kept : Value.Entries} (hexact : ch.Exact h f r cs)
    (hkept : (r.run h cs).get? ch.field = some (.map kept)) :
    ∃ c entries, kept = ch.shown f c entries := by
  cases hexact with
  | unset hnone hskips =>
      rw [hnone] at hkept
      cases hkept
  | last before c after hoffered hshown hskips =>
      rw [hshown] at hkept
      cases hkept
      exact ⟨c, _, rfl⟩

/-- Parameters are masked whatever operation they come from. -/
theorem exists_shown_params (c : Call) (entries : Value.Entries) :
    ∃ given, Channel.params.shown f c entries = f.shownParams given := by
  unfold shown
  split
  case h_3 => exact ⟨_, rfl⟩
  case h_4 => exact ⟨_, rfl⟩
  all_goals contradiction

end Channel

/-- Where every map is exact, nothing that is protected is in any. -/
theorem Record.confidential_of_exact {r : Record} {h : Host} {f : Filter}
    {cs : List Call} (hf : f.excludeSensitiveHeaders = true)
    (hexact : ∀ ch : Channel, ch.Exact h f r cs) :
    (r.run h cs).Confidential f where
  restHeaders := by
    intro kept hkept e he name hname
    obtain ⟨c, entries, rfl⟩ := (hexact .restHeaders).eq_shown hkept
    have hkeeps := (List.mem_filter.mp he).2
    rw [hname] at hkeeps
    have hkeeps : f.keepsHeader name = true := hkeeps
    simpa [Filter.keepsHeader, hf] using hkeeps
  transportHeaders := by
    intro kept hkept e he name hname
    obtain ⟨c, entries, rfl⟩ := (hexact .transportHeaders).eq_shown hkept
    have hvisible := (List.mem_filter.mp he).2
    rw [hname] at hvisible
    simpa using hvisible
  params := by
    intro kept hkept e he name hname hmasked
    obtain ⟨c, entries, rfl⟩ := (hexact .params).eq_shown hkept
    obtain ⟨given, hgiven⟩ := Channel.exists_shown_params (f := f) c entries
    rw [hgiven] at he
    obtain ⟨d, -, rfl⟩ := List.mem_map.mp he
    have hname : d.1.text? = some name := hname
    show (if d.1.text?.any f.excludesUrlParam then _ else _) = _
    rw [hname]
    exact if_pos hmasked

namespace Record

variable {category origin layer : Value} {cluster : Option Cluster}
  {clock : DateTime} {r : Record}

/-- Under a filter that drops credentials, and with every operation told to
protect headers and parameters, no record ever shows what is protected; and
nothing else is lost: each map is what may be shown of the last one that was
recorded, in its order. -/
theorem run_confidential {f : Filter}
    (hf : f.excludeSensitiveHeaders = true)
    (hr : start category cluster origin layer clock = .ok r) (h : Host)
    (cs : List Call) (hcs : ∀ c ∈ cs, c.Guarded f) :
    (r.run h cs).Confidential f ∧ ∀ ch : Channel, ch.Exact h f r cs := by
  have hstart : r.Every fun field _ => field ∈ startFields :=
    every_start initial_fields hr
  have hnone : ∀ ch : Channel, r.get? ch.field = none := by
    intro ch
    cases hget : r.get? ch.field with
    | none => rfl
    | some v =>
        have hmem := hstart _ _ hget
        cases ch <;> simp [Channel.field, startFields] at hmem
  have hexact : ∀ ch : Channel, ch.Exact h f r cs :=
    fun ch => Channel.exact_run hf (hnone ch) hcs
  exact ⟨confidential_of_exact hf hexact, hexact⟩

/-- A filter that drops some headers and masks a parameter. -/
def tokenFilter : Filter := ⟨true, true, ["x-*".toList], ["token".toList]⟩

/-- A request that changes a password, after headers of another one. -/
def tokenRequest : List Call :=
  [.transportHeaders
      (.map [(.text "AUTHORIZATION".toList, .text "Basic".toList),
        (.text "_node".toList, .text "n2".toList)]) (.bool true),
    .headers (.map [(.text "Accept".toList, .text "*/*".toList)]) (.bool true)
      (.given tokenFilter),
    .request (.request
      { isRest := false
        path := .text "/_plugins/_security/api/account".toList
        method := .null
        headers := .map
          [(.text "Authorization".toList, .list [.text "Basic".toList]),
            (.text "X-Tenant".toList, .text "a".toList),
            (.text "Host".toList, .text "b".toList)]
        params := .map
          [(.text "token".toList, .text "t".toList),
            (.text "source".toList, .text "password=p".toList),
            (.text "pretty".toList, .text "true".toList)]
        content := .null
        mediaType := .null }) (.given tokenFilter)]

/-- What the record shows of it. -/
theorem run_confidential_tokenRequest :
    ∃ r, login = .ok r
      ∧ (r.run bareHost tokenRequest).Confidential tokenFilter
      ∧ (r.run bareHost tokenRequest).get? .transportRequestHeaders
        = some (.map [(.text "_node".toList, .text "n2".toList)])
      ∧ (r.run bareHost tokenRequest).get? .restRequestHeaders
        = some (.map [(.text "Host".toList, .list [.text "b".toList])])
      ∧ (r.run bareHost tokenRequest).get? .restRequestParams
        = some (.map
          [(.text "token".toList, .text "REDACTED".toList),
            (.text "source".toList, .text "__SENSITIVE__".toList),
            (.text "pretty".toList, .text "true".toList)]) := by
  have hr : login = .ok _ := rfl
  have hguarded : ∀ c ∈ tokenRequest, c.Guarded tokenFilter := by
    simp [tokenRequest, Call.Guarded, Value.truthy]
  obtain ⟨hconfidential, -⟩ :=
    run_confidential rfl hr bareHost tokenRequest hguarded
  exact ⟨_, hr, hconfidential, rfl, rfl, rfl⟩

end Record

end AuditTrail
