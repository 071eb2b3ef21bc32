/-
The times that records state.

Two ways lead to a time in a record: the time of a file comes as a number of
seconds, the time of the event from a clock with an offset from universal
time. Both are brought to one instant, and of the instant there is one text.
So there is one statement for both (`timestamps_denote`): a time in
microseconds has a text, whichever way it came, which denotes it rounded down
to milliseconds, and later times have texts that do not come before.

A number of seconds is a floating-point number, and which time it is meant
for is left out here: it stands for the time that it is exactly. A clock is
asked when a record is started, and decides nothing but the time
(`start_at`).
-/
import AuditTrail.Files.Fingerprint
import AuditTrail.Proofs.Calendar.Instant
import AuditTrail.Proofs.Calendar.Seconds
import AuditTrail.Proofs.Record.NormalForm

namespace AuditTrail

variable {u : Int}

-- ================================================================= clocks

/-- A clock that shows so many microseconds after the beginning of 1970: the
date and the time of day that it shows, less its offset. -/
structure DateTime.Shows (clock : DateTime) (u : Int) : Prop where
  date : clock.date.check = .ok ()
  offset : ∃ o, clock.offset = some o
    ∧ Instant.elapsed clock.date clock.time - o = u

theorem DateTime.Shows.toInstant? {clock : DateTime} (h : clock.Shows u)
    (hu : Instant.HasDate u) : clock.toInstant? = .ok ⟨u⟩ := by
  obtain ⟨o, hoffset, rfl⟩ := h.offset
  have hrange := Instant.inRange_iff.mpr (Instant.hasDate_iff.mp hu)
  rw [Instant.elapsed_eq h.date] at hrange ⊢
  unfold DateTime.toInstant? DateTime.toInstant
  rw [hoffset, Option.isNone_some, Bool.false_and, if_neg Bool.false_ne_true,
    Option.getD_some, if_pos hrange]

namespace Record

variable {category origin layer : Value} {cluster : Option Cluster}
  {clock clock' : DateTime} {r : Record}

theorem Write.of_accepted {f : Field} {v : Value}
    (h : f.kind.accepts v = true) : Write.of f v = .ok (f, v) :=
  if_pos h

/-- What a record is asked to be made of, it is made of. -/
theorem initial_eq_ok {i : Identity} {os ls : List Write}
    (hi : i.Of category cluster clock)
    (hos : originWrite .origin origin = .ok os)
    (hls : originWrite .requestLayer layer = .ok ls) :
    initial category cluster origin layer clock
      = .ok (i.writes ++ os ++ ls) := by
  obtain ⟨hcategory, rfl, htime, haccepted⟩ := hi
  simp only [Identity.writes, List.forall_mem_cons] at haccepted
  obtain ⟨-, -, -, haddress, hid, hhost, hnode, hcluster, -⟩ := haccepted
  unfold initial
  split
  case h_1 => cases hcategory
  case h_2 hnone => cases hnone
  case h_3 hsome =>
    cases hsome
    rw [htime, hcategory, hos, hls, Write.of_accepted haddress,
      Write.of_accepted hid, Write.of_accepted hhost, Write.of_accepted hnode,
      Write.of_accepted hcluster]
    rfl

/-- A record that can be started can be started at any time that has a text,
and states that text. -/
theorem start_at {i : Instant}
    (hr : start category cluster origin layer clock = .ok r)
    (hclock : clock'.toInstant? = .ok i) :
    ∃ r', start category cluster origin layer clock' = .ok r'
      ∧ r'.get? .utcTimestamp = some (.text i.toText) := by
  obtain ⟨first, hfirst, -⟩ := exists_of_start hr
  obtain ⟨id, os, ls, hid, hos, hls, -⟩ := exists_of_initial hfirst
  have hid' : (⟨id.category, id.cluster, i⟩ : Identity).Of category cluster
      clock' := by
    refine ⟨hid.category, hid.cluster, hclock, ?_⟩
    have haccepted := hid.accepted
    simp only [Identity.writes, List.forall_mem_cons] at haccepted ⊢
    exact ⟨haccepted.1, haccepted.2.1, rfl, haccepted.2.2.2⟩
  have hstart : start category cluster origin layer clock'
      = .ok (putAll ⟨[]⟩ _) :=
    congrArg (Except.map _) (initial_eq_ok hid' hos hls)
  obtain ⟨id', hid'', hwrites, -⟩ := start_eq_ok hstart
  have htime : id'.time = i := by
    have hsame := hid''.time.symm.trans hclock
    cases hsame
    rfl
  refine ⟨_, hstart, ?_⟩
  rw [hwrites (.utcTimestamp, .text id'.time.toText) (by simp [Identity.writes]),
    htime]

end Record

-- ================================================================== times

namespace Instant

/-- The text of a time in microseconds. -/
def exactText (u : Int) : Except Fault Text :=
  recorded (ofWholeSeconds (u.fdiv 1000000) (u.fmod 1000000).toNat)

theorem exactText_eq (hu : HasDate u) : exactText u = .ok (toText ⟨u⟩) :=
  congrArg recorded (ofWholeSeconds_exact (hasDate_iff.mp hu))

/-- Whole seconds have no microseconds beside them. -/
theorem textOfValue_int (n : Int) :
    textOfValue (.int n) = exactText (n * 1000000) := by
  unfold exactText
  rw [Int.mul_fdiv_cancel _ (by decide), Int.mul_fmod_left]
  rfl

theorem textOfValue_float {x : Double} {num : Int} {den : Nat}
    (hx : x.fraction? = some (num, den)) (hu : num * 1000000 = u * den) :
    textOfValue (.float x) = exactText u :=
  congrArg recorded (ofSeconds_exact hx hu)

/-- A time in microseconds, before 1970 or after, in the years 1 to 9999. It
has a text, which denotes the milliseconds that it is rounded down to; a
number of seconds that is exactly this time has that text; and no later time
has a text that comes before. A record that is started with a clock that
shows this time, whatever its offset from universal time, states that text. -/
theorem timestamps_denote (hu : HasDate u) :
    ∃ text, exactText u = .ok text ∧ Denotes text (u.fdiv 1000)
      ∧ (∀ n : Int, n * 1000000 = u → textOfValue (.int n) = .ok text)
      ∧ (∀ x num den, Double.fraction? x = some (num, den) →
          num * 1000000 = u * den → textOfValue (.float x) = .ok text)
      ∧ (∀ v, HasDate v → u ≤ v →
          ∃ text', exactText v = .ok text' ∧ ¬ text' < text)
      ∧ ∀ {category cluster origin layer clock clock' r},
          Record.start category cluster origin layer clock = .ok r →
          clock'.Shows u →
            ∃ r', Record.start category cluster origin layer clock' = .ok r'
              ∧ r'.get? .utcTimestamp = some (.text text) := by
  have hyear := hasDate_iff.mp hu
  have htext := exactText_eq hu
  refine ⟨_, htext, denotes_toText hyear, ?_, ?_, ?_, ?_⟩
  · rintro n rfl
    rw [textOfValue_int, htext]
  · intro x num den hx hsame
    rw [textOfValue_float hx hsame, htext]
  · intro v hv huv
    refine ⟨_, exactText_eq hv, fun hlt => ?_⟩
    rw [toText_lt_iff (hasDate_iff.mp hv) hyear,
      Int.fdiv_eq_ediv_of_nonneg _ (by decide),
      Int.fdiv_eq_ediv_of_nonneg _ (by decide)] at hlt
    dsimp only at hlt
    omega
  · intro category cluster origin layer clock clock' r hr hclock
    exact Record.start_at hr (hclock.toInstant? hu)

/-- A login on some node, at the time that a clock shows. -/
def loginAt (clock : DateTime) : Except Fault Record :=
  Record.start (.term (.category .authenticated))
    (some ⟨.text "n1".toList, .text "10.0.0.1".toList, .text "host-1".toList,
      .text "node-1".toList, .text "prod".toList⟩)
    .null .null clock

/-- One second before 1970: as an integer, as a floating-point number, and on
a clock in the east, where it is 1970 already. -/
theorem timestamps_denote_secondBefore :
    let text := "1969-12-31T23:59:59.000+00:00".toList
    exactText (-1000000) = .ok text ∧ Denotes text (-1000)
      ∧ textOfValue (.int (-1)) = .ok text
      ∧ textOfValue (.float (.finite true (2 ^ 52) (-52))) = .ok text
      ∧ (∃ text', exactText 0 = .ok text' ∧ ¬ text' < text)
      ∧ ∃ r, loginAt ⟨⟨1970, 1, 1⟩, ⟨5, 29, 59, 0⟩, some 19800000000⟩ = .ok r
        ∧ r.get? .utcTimestamp = some (.text text) := by
  have hbefore : HasDate (-1000000) :=
    ⟨⟨1969, 12, 31⟩, ⟨23, 59, 59, 0⟩, rfl, rfl, by decide,
      (elapsed_eq rfl _).trans (by decide)⟩
  have hbeginning : HasDate 0 :=
    ⟨⟨1970, 1, 1⟩, ⟨0, 0, 0, 0⟩, rfl, rfl, by decide,
      (elapsed_eq rfl _).trans (by decide)⟩
  have hclock : DateTime.Shows
      ⟨⟨1970, 1, 1⟩, ⟨5, 29, 59, 0⟩, some 19800000000⟩ (-1000000) :=
    ⟨rfl, _, rfl, by rw [elapsed_eq rfl]; decide⟩
  have hlogin : loginAt ⟨⟨2024, 1, 2⟩, ⟨3, 4, 5, 678000⟩, none⟩ = .ok _ := rfl
  obtain ⟨text, htext, hdenotes, hint, hfloat, hlater, hstart⟩ :=
    timestamps_denote hbefore
  have hsame : exactText (-1000000)
      = .ok "1969-12-31T23:59:59.000+00:00".toList := rfl
  obtain rfl : _ = text := Except.ok.inj (hsame.symm.trans htext)
  exact ⟨htext, hdenotes, hint (-1) rfl,
    hfloat _ (-(2 ^ 52 : Nat)) (2 ^ 52) rfl (by decide),
    hlater 0 hbeginning (by decide), hstart hlogin hclock⟩

end Instant

end AuditTrail
