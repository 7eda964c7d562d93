/-
# What is done about a status

The reaction to an answer is a decision table.  Its rows are the constructors of `Decides`: a
status that wants no tunnel while one is there has it closed, a status that wants one while none
is there runs through the reasons to refuse, of which the first that applies is returned, and
every other status is ignored.  Each row names all that the reaction leaves behind: its result,
the transport with the way of activity reports, and what can be seen.

The table is complete and its rows exclude one another, since the reaction is the row that applies
(`TunnelControl.react_eq_iff`).  What the transport is told, and that a refusal touches neither the
transport nor the reports, is then read off the rows one by one.
-/
import CheckIn.Proofs.Credentials
import CheckIn.Proofs.Stages
import CheckIn.Proofs.TunnelSafety

namespace CheckIn

/-! ## Credentials and ports -/

/-- Credentials that are accepted: base64 for a ciphertext that decrypts to the bytes of a text. -/
def Accepts (decrypt : Decryptor) (id : EdgeId) (sent credentials : String) : Prop :=
  ∃ ciphertext, sent = Base64.encode ciphertext ∧
    decrypt ciphertext id.key = .ok (utf8 credentials)

/-- Why credentials are refused. -/
inductive Rejects (decrypt : Decryptor) (id : EdgeId) (sent : String) : TunnelError → Prop
  /-- The text is not base64, and the fault is the one that the reader finds. -/
  | encoding {fault : Base64.Fault} (hsent : ∀ ciphertext, sent ≠ Base64.encode ciphertext)
      (hfault : Base64.decode (utf8 sent) = .error fault) :
      Rejects decrypt id sent (.credentialEncoding fault)
  /-- The text is base64, but decryption fails. -/
  | decrypt {ciphertext : List UInt8} {reason : String} (hsent : sent = Base64.encode ciphertext)
      (hreason : decrypt ciphertext id.key = .error reason) :
      Rejects decrypt id sent (.decrypt reason)
  /-- Decryption succeeds, but what comes out is no text. -/
  | text {ciphertext plain : List UInt8} (hsent : sent = Base64.encode ciphertext)
      (hplain : decrypt ciphertext id.key = .ok plain) (htext : ∀ text, plain ≠ utf8 text) :
      Rejects decrypt id sent .credentialText

/-- A port that fits into 16 bits. -/
def FitsPort (port : Int64) : Prop := 0 ≤ port.toInt ∧ port.toInt ≤ 65535

/-- Decimal digits, at least one, that denote a port. -/
structure DenotesPort (digits : String) (port : Int64) : Prop where
  isDigit : ∀ c ∈ digits.toList, c.isDigit = true
  ne_empty : digits.toList ≠ []
  value : (digitsValue digits.toList : Int) = port.toInt

lemma ofUtf8?_eq_none_iff {bytes : List UInt8} :
    ofUtf8? bytes = none ↔ ∀ text, bytes ≠ utf8 text := by
  rw [Option.eq_none_iff_forall_ne_some]
  exact forall_congr' fun text => not_congr ofUtf8?_eq_some_iff

/-- Credentials are refused for the first reason that applies. -/
lemma decodeCredentials_eq_error_iff {decrypt : Decryptor} {id : EdgeId} {sent : String}
    {error : TunnelError} :
    decodeCredentials decrypt id sent = .error error ↔ Rejects decrypt id sent error := by
  constructor
  · intro h
    obtain ⟨ciphertext, rfl⟩ | ⟨fault, hfault⟩ := eq_encode_or_fault sent
    · rw [decodeCredentials_encode] at h
      split at h
      · next reason hreason =>
        cases h
        exact .decrypt rfl hreason
      · next plain hplain =>
        split at h
        · cases h
        · next htext =>
          cases h
          exact .text rfl hplain (ofUtf8?_eq_none_iff.mp htext)
    · rw [decodeCredentials_of_fault _ _ hfault] at h
      cases h
      refine .encoding (fun ciphertext heq => ?_) hfault
      rw [Base64.decode_utf8_eq_ok_iff.mpr heq] at hfault
      cases hfault
  · intro h
    cases h with
    | encoding _ hfault => exact decodeCredentials_of_fault _ _ hfault
    | decrypt hsent hreason =>
      subst hsent
      rw [decodeCredentials_encode, hreason]
    | text hsent hplain htext =>
      subst hsent
      rw [decodeCredentials_encode, hplain]
      simp only [ofUtf8?_eq_none_iff.mpr htext]

lemma remotePort_of_fits {port : Int64} (h : FitsPort port) :
    remotePort port = .ok port.toInt.toNat := by
  unfold FitsPort at h
  rw [remotePort, if_pos (by omega)]

lemma remotePort_of_not_fits {port : Int64} (h : ¬ FitsPort port) :
    remotePort port = .error (.invalidPort port) := by
  unfold FitsPort at h
  rw [remotePort, if_neg (by omega)]

/-- A port that fits is told in digits that denote it. -/
lemma FitsPort.denotes {port : Int64} (h : FitsPort port) :
    DenotesPort (decimalNat port.toInt.toNat) port where
  isDigit c hc := by
    rw [decimalNat, String.toList_ofList] at hc
    exact isDigit_of_mem_decimalDigits hc
  ne_empty := by
    rw [decimalNat, String.toList_ofList]
    exact decimalDigits_ne_nil _
  value := by
    rw [decimalNat, String.toList_ofList, digitsValue_decimalDigits]
    exact Int.toNat_of_nonneg h.1

namespace TunnelControl

variable (decrypt : Decryptor) (identity : TunnelIdentity) (status : Status) (sent : String)
  (port : Int64) (control : TunnelControl)

/-! ## The table -/

/-- The rows of the table: under which conditions a reaction has which result, what it leaves
behind, and what of it can be seen. -/
inductive Decides : Except TunnelError TunnelAction × TunnelControl × List Event → Prop
  /-- A tunnel that is not wanted is closed, and whether closing fails does not matter. -/
  | closing (hstatus : status = .idle) (hopen : control.transport.isOpen = true) :
      Decides (.ok .closeRequested, control.afterClosing,
        .log (.idleRequested status) :: .closeTunnel :: control.closingRecords)
  /-- The credentials are refused. -/
  | rejected {error : TunnelError} (hstatus : status = .required)
      (hclosed : control.transport.isOpen = false)
      (hrejects : Rejects decrypt identity.edgeId sent error) :
      Decides (.error error, control, [.log .tunnelRequested])
  /-- The credentials are accepted, but the port does not fit. -/
  | misfit {credentials : String} (hstatus : status = .required)
      (hclosed : control.transport.isOpen = false)
      (haccepts : Accepts decrypt identity.edgeId sent credentials) (hport : ¬ FitsPort port) :
      Decides (.error (.invalidPort port), control, [.log .tunnelRequested])
  /-- The port fits as well, but the transport refuses. -/
  | refused {credentials : String} (hstatus : status = .required)
      (hclosed : control.transport.isOpen = false)
      (haccepts : Accepts decrypt identity.edgeId sent credentials) (hport : FitsPort port)
      (hrefuses : control.transport.refusesOpen = true) :
      Decides (.error (.refusedOpen control.transport.openFault), control,
        [.log .tunnelRequested,
          .openTunnel (parameters identity credentials port.toInt.toNat),
          .log (.tunnelRefused control.transport.openFault)])
  /-- Nothing stands against opening, and the first use of the tunnel is reported. -/
  | opening {credentials : String} (hstatus : status = .required)
      (hclosed : control.transport.isOpen = false)
      (haccepts : Accepts decrypt identity.edgeId sent credentials) (hport : FitsPort port)
      (hrefuses : control.transport.refusesOpen = false) :
      Decides (.ok .opened,
        control.afterOpening (parameters identity credentials port.toInt.toNat),
        .log .tunnelRequested ::
          .openTunnel (parameters identity credentials port.toInt.toNat) ::
            .log (.tunnelEstablished port.toInt.toNat) ::
              (control.activity.report true).2.map .log)
  /-- There is nothing to do. -/
  | nothing (hidle : ¬ (status = .idle ∧ control.transport.isOpen = true))
      (hrequired : ¬ (status = .required ∧ control.transport.isOpen = false)) :
      Decides (.ok .none, control, [])

variable {decrypt identity status sent port control}

lemma mustClose_eq_true_iff :
    control.mustClose status = true ↔ status = .idle ∧ control.transport.isOpen = true := by
  rw [mustClose, decide_eq_true_iff, Transport.state, TunnelState.ofOpen]
  cases control.transport.isOpen <;> simp

lemma mustOpen_eq_true_iff :
    control.mustOpen status = true ↔ status = .required ∧ control.transport.isOpen = false := by
  rw [mustOpen, decide_eq_true_iff, Transport.state, TunnelState.ofOpen]
  cases control.transport.isOpen <;> simp

lemma react_of_mustOpen (hstatus : status = .required)
    (hclosed : control.transport.isOpen = false) :
    control.react decrypt identity status sent port =
      control.openFor decrypt identity sent port := by
  have hclose : ¬ control.mustClose status = true := by
    rw [mustClose_eq_true_iff, hclosed]
    exact fun h => Bool.false_ne_true h.2
  rw [react, if_neg hclose, if_pos (mustOpen_eq_true_iff.mpr ⟨hstatus, hclosed⟩)]

/-- Every row is what the reaction does. -/
lemma Decides.react_eq {outcome : Except TunnelError TunnelAction × TunnelControl × List Event}
    (h : Decides decrypt identity status sent port control outcome) :
    control.react decrypt identity status sent port = outcome := by
  cases h with
  | closing hstatus hopen =>
    obtain ⟨done, hdone⟩ := control.finishClose_eq
    rw [react, if_pos (mustClose_eq_true_iff.mpr ⟨hstatus, hopen⟩), hdone]
    rfl
  | rejected hstatus hclosed hrejects =>
    rw [react_of_mustOpen hstatus hclosed, openFor_eq,
      decodeCredentials_eq_error_iff.mpr hrejects]
  | misfit hstatus hclosed haccepts hport =>
    rw [react_of_mustOpen hstatus hclosed, openFor_eq,
      decodeCredentials_eq_ok_iff.mpr haccepts]
    simp only [remotePort_of_not_fits hport]
  | refused hstatus hclosed haccepts hport hrefuses =>
    rw [react_of_mustOpen hstatus hclosed, openFor_eq,
      decodeCredentials_eq_ok_iff.mpr haccepts]
    simp only [remotePort_of_fits hport, hrefuses, if_true]
  | opening hstatus hclosed haccepts hport hrefuses =>
    rw [react_of_mustOpen hstatus hclosed, openFor_eq,
      decodeCredentials_eq_ok_iff.mpr haccepts]
    simp only [remotePort_of_fits hport, hrefuses, Bool.false_eq_true, if_false]
  | nothing hidle hrequired =>
    rw [react, if_neg (mt mustClose_eq_true_iff.mp hidle),
      if_neg (mt mustOpen_eq_true_iff.mp hrequired)]

/-- Some row applies. -/
lemma exists_decides :
    ∃ outcome, Decides decrypt identity status sent port control outcome := by
  by_cases hidle : status = .idle ∧ control.transport.isOpen = true
  · exact ⟨_, .closing hidle.1 hidle.2⟩
  by_cases hrequired : status = .required ∧ control.transport.isOpen = false
  · obtain ⟨hstatus, hclosed⟩ := hrequired
    cases hcredentials : decodeCredentials decrypt identity.edgeId sent with
    | error error =>
      exact ⟨_, .rejected hstatus hclosed (decodeCredentials_eq_error_iff.mp hcredentials)⟩
    | ok credentials =>
      have haccepts := decodeCredentials_eq_ok_iff.mp hcredentials
      by_cases hport : FitsPort port
      · cases hrefuses : control.transport.refusesOpen
        · exact ⟨_, .opening hstatus hclosed haccepts hport hrefuses⟩
        · exact ⟨_, .refused hstatus hclosed haccepts hport hrefuses⟩
      · exact ⟨_, .misfit hstatus hclosed haccepts hport⟩
  · exact ⟨_, .nothing hidle hrequired⟩

/-- The reaction is the row that applies. -/
lemma react_eq_iff {outcome : Except TunnelError TunnelAction × TunnelControl × List Event} :
    control.react decrypt identity status sent port = outcome ↔
      Decides decrypt identity status sent port control outcome := by
  constructor
  · rintro rfl
    obtain ⟨outcome, h⟩ : ∃ outcome, Decides decrypt identity status sent port control outcome :=
      exists_decides
    rw [h.react_eq]
    exact h
  · exact Decides.react_eq

/-! ## What the transport is told -/

/-- The conditions under which a tunnel is to be opened: an answer that wants one while none is
there, with credentials that are not refused and a port that fits. -/
structure Opens (decrypt : Decryptor) (identity : TunnelIdentity) (status : Status)
    (sent : String) (port : Int64) (control : TunnelControl) : Prop where
  status : status = .required
  closed : control.transport.isOpen = false
  accepted : ∀ error, ¬ Rejects decrypt identity.edgeId sent error
  fits : FitsPort port

/-- What a transport is told, for an answer with such credentials and such a port. -/
structure Tells (decrypt : Decryptor) (identity : TunnelIdentity) (sent : String) (port : Int64)
    (parameters : TunnelParameters) : Prop where
  serverAddr : parameters.serverAddr = identity.serverAddr
  serverFingerprint : parameters.serverFingerprint = identity.serverFingerprint
  localAddr : parameters.localAddr = identity.localAddr
  credentials : Accepts decrypt identity.edgeId sent parameters.credentials
  remotePort : DenotesPort parameters.remotePort port

lemma tells_parameters {credentials : String}
    (haccepts : Accepts decrypt identity.edgeId sent credentials) (hport : FitsPort port) :
    Tells decrypt identity sent port (parameters identity credentials port.toInt.toNat) :=
  ⟨rfl, rfl, rfl, haccepts, hport.denotes⟩

/-- Accepted credentials are not refused. -/
lemma not_rejects {credentials : String}
    (h : Accepts decrypt identity.edgeId sent credentials) (error : TunnelError) :
    ¬ Rejects decrypt identity.edgeId sent error := by
  intro hrejects
  have hread := decodeCredentials_eq_ok_iff.mpr h
  rw [decodeCredentials_eq_error_iff.mpr hrejects] at hread
  cases hread

/-- The calls of a row: one call of close, no call, or one call of open. -/
lemma Decides.calls {result : Except TunnelError TunnelAction} {after : TunnelControl}
    {events : List Event}
    (h : Decides decrypt identity status sent port control (result, after, events)) :
    (status = .idle ∧ control.transport.isOpen = true) ∧ tunnelCalls events = [.closing] ∨
    ¬ (status = .idle ∧ control.transport.isOpen = true) ∧
      ¬ Opens decrypt identity status sent port control ∧ tunnelCalls events = [] ∨
    Opens decrypt identity status sent port control ∧
      ∃ parameters, Tells decrypt identity sent port parameters ∧
        tunnelCalls events = [.opening parameters] := by
  cases h with
  | closing hstatus hopen =>
    refine .inl ⟨⟨hstatus, hopen⟩, ?_⟩
    have hrecords := Service.seen_closingRecords tunnelObserver control
    rw [tunnelCalls, tunnelObserver.seen_cons, tunnelObserver.seen_cons, hrecords]
    rfl
  | rejected hstatus hclosed hrejects =>
    exact .inr (.inl ⟨by simp [hclosed], fun h => h.accepted _ hrejects, rfl⟩)
  | misfit hstatus hclosed haccepts hport =>
    exact .inr (.inl ⟨by simp [hclosed], fun h => hport h.fits, rfl⟩)
  | refused hstatus hclosed haccepts hport hrefuses =>
    exact .inr (.inr ⟨⟨hstatus, hclosed, not_rejects haccepts, hport⟩, _,
      tells_parameters haccepts hport, rfl⟩)
  | opening hstatus hclosed haccepts hport hrefuses =>
    refine .inr (.inr ⟨⟨hstatus, hclosed, not_rejects haccepts, hport⟩, _,
      tells_parameters haccepts hport, ?_⟩)
    simp [tunnelCalls, tunnelObserver]
  | nothing hidle hrequired =>
    exact .inr (.inl ⟨hidle, fun h => hrequired ⟨h.status, h.closed⟩, rfl⟩)

/-- A row calls the transport at most once, and each call has its conditions. -/
lemma Decides.called {result : Except TunnelError TunnelAction} {after : TunnelControl}
    {events : List Event}
    (h : Decides decrypt identity status sent port control (result, after, events)) :
    (tunnelCalls events).length ≤ 1 ∧
      (.closing ∈ tunnelCalls events ↔ status = .idle ∧ control.transport.isOpen = true) ∧
      ((∃ parameters, .opening parameters ∈ tunnelCalls events) ↔
        Opens decrypt identity status sent port control) ∧
      ∀ parameters, .opening parameters ∈ tunnelCalls events →
        Tells decrypt identity sent port parameters := by
  obtain ⟨hidle, hcalls⟩ | ⟨hidle, hopens, hcalls⟩ | ⟨hopens, parameters, htells, hcalls⟩ := h.calls
  · have hopens : ¬ Opens decrypt identity status sent port control := by
      intro hopens
      rw [hopens.closed] at hidle
      exact Bool.false_ne_true hidle.2
    rw [hcalls, iff_true_intro hidle, iff_false_intro hopens]
    simp
  · rw [hcalls, iff_false_intro hidle, iff_false_intro hopens]
    simp
  · have hidle : ¬ (status = .idle ∧ control.transport.isOpen = true) := by
      simp [hopens.closed]
    rw [hcalls, iff_false_intro hidle, iff_true_intro hopens]
    simp [htells]

/-! ## What is reported -/

/-- The records of a report are all that is said about reports. -/
lemma filter_isActivityRecord_report (slot : ActivitySlot) (isOpen : Bool) :
    ((slot.report isOpen).2.map Event.log).filter Event.isActivityRecord =
      (slot.report isOpen).2.map .log := by
  unfold ActivitySlot.report
  repeat' split
  all_goals rfl

/-- A row with an error changes nothing and says nothing about reports. -/
lemma Decides.of_error {error : TunnelError} {after : TunnelControl} {events : List Event}
    (h : Decides decrypt identity status sent port control (.error error, after, events)) :
    after = control ∧ ∀ event ∈ events, event.isActivityRecord = false := by
  cases h <;> simp [Event.isActivityRecord]

/-- The row that opens a tunnel makes one report. -/
lemma Decides.of_opened {after : TunnelControl} {events : List Event}
    (h : Decides decrypt identity status sent port control (.ok .opened, after, events)) :
    after.activity = (control.activity.report true).1 ∧
      events.filter Event.isActivityRecord = (control.activity.report true).2.map .log := by
  cases h with
  | opening => exact ⟨rfl, filter_isActivityRecord_report control.activity true⟩

/-- The reaction is the row of the table that applies.  The transport is called at most once:
close for a tunnel that is not wanted, open for a wanted one exactly if neither the credentials
nor the port are refused, and then with all that the identity and the answer say.  An error
changes neither the transport nor the way of reports and leaves no record of a report, and an
opening makes one report. -/
theorem react_decision (decrypt : Decryptor) (identity : TunnelIdentity) (status : Status)
    (sent : String) (port : Int64) (control : TunnelControl) :
    ∃ result after events,
      control.react decrypt identity status sent port = (result, after, events) ∧
      (∀ outcome, control.react decrypt identity status sent port = outcome ↔
        Decides decrypt identity status sent port control outcome) ∧
      (tunnelCalls events).length ≤ 1 ∧
      (.closing ∈ tunnelCalls events ↔ status = .idle ∧ control.transport.isOpen = true) ∧
      ((∃ parameters, .opening parameters ∈ tunnelCalls events) ↔
        Opens decrypt identity status sent port control) ∧
      (∀ parameters, .opening parameters ∈ tunnelCalls events →
        Tells decrypt identity sent port parameters) ∧
      (∀ error, result = .error error →
        after = control ∧ ∀ event ∈ events, event.isActivityRecord = false) ∧
      (result = .ok .opened →
        after.activity = (control.activity.report true).1 ∧
          events.filter Event.isActivityRecord = (control.activity.report true).2.map .log) := by
  obtain ⟨⟨result, after, events⟩, h⟩ :
    ∃ outcome, Decides decrypt identity status sent port control outcome := exists_decides
  obtain ⟨hlength, hcloses, hopens, htells⟩ := h.called
  refine ⟨result, after, events, h.react_eq, fun outcome => react_eq_iff, hlength, hcloses, hopens,
    htells, ?_, ?_⟩
  · rintro error rfl
    exact h.of_error
  · rintro rfl
    exact h.of_opened

/-- An agent whose tunnel is closed opens one for a port of 16 bits, and refuses a larger port. -/
theorem opened_or_refused :
    let identity : TunnelIdentity := ⟨⟨"edge-key"⟩, "tunnel.example:8000", "fp", "0.0.0.0:9001"⟩
    let control : TunnelControl := ⟨{}, {}⟩
    let sent := encodeCredentials identity.edgeId "eu:p"
    (∃ after events,
      control.react leadingKeyDecryptor identity .required sent 7000 =
        (.ok .opened, after, events) ∧
      after.activity.pending = true ∧
      tunnelCalls events =
        [.opening ⟨"tunnel.example:8000", "fp", "eu:p", "7000", "0.0.0.0:9001"⟩] ∧
      DenotesPort "7000" 7000) ∧
    ∃ events, control.react leadingKeyDecryptor identity .required sent 70000 =
        (.error (.invalidPort 70000), control, events) ∧
      ∀ event ∈ events, event.isActivityRecord = false := by
  intro identity control sent
  have haccepts : Accepts leadingKeyDecryptor identity.edgeId sent "eu:p" :=
    decodeCredentials_eq_ok_iff.mp (accepts_iff.mpr rfl)
  constructor
  · obtain ⟨result, after, events, hreact, htable, -, -, -, htells, -, hopened⟩ :=
      react_decision leadingKeyDecryptor identity .required sent 7000 control
    have hrow := (htable _).mpr (.opening rfl rfl haccepts (by unfold FitsPort; decide) rfl)
    obtain ⟨rfl, hrest⟩ := Prod.mk.inj (hreact.symm.trans hrow)
    obtain ⟨rfl, rfl⟩ := Prod.mk.inj hrest
    obtain ⟨hactivity, -⟩ := hopened rfl
    have htold := htells (parameters identity "eu:p" 7000) (List.mem_singleton.mpr rfl)
    refine ⟨_, _, hreact, ?_, rfl, htold.remotePort⟩
    rw [hactivity]
    rfl
  · obtain ⟨result, after, events, hreact, htable, -, -, -, -, herror, -⟩ :=
      react_decision leadingKeyDecryptor identity .required sent 70000 control
    have hrow := (htable _).mpr (.misfit rfl rfl haccepts (by unfold FitsPort; decide))
    obtain ⟨rfl, -⟩ := Prod.mk.inj (hreact.symm.trans hrow)
    obtain ⟨rfl, hevents⟩ := herror _ rfl
    exact ⟨events, hreact, hevents⟩

end TunnelControl

end CheckIn
