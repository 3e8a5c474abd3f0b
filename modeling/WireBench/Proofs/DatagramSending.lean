import WireBench.Program.Fixtures
import WireBench.Proofs.CalendarDates
import WireBench.Proofs.Literals
import WireBench.Proofs.LowerCase
import WireBench.Proofs.NumeralText
import WireBench.Proofs.Segmentation

/-!
# One datagram or none

A command line that asks for a datagram is checked completely before anything is sent: the mode, the
steps in a group, the target, and whether the mode fits the target. So either exactly one datagram
is sent, to the target that is told and with the message behind a stamp, or none is, and the exit
code tells whether the command line itself was refused.
-/

namespace WireBench

namespace Net

structure Network.GrantsSending (network : Network) : Prop where
  setHops_eq : ∀ hops, network.setHops hops = none
  send_eq : ∀ target size, network.send target size = none

/-- Whether an address is one of a group: it starts with the four bits 1110 in the older family and
with eight ones in the newer. -/
inductive IpAddress.IsGroup : IpAddress → Prop where
  | v4 {ip : Ipv4} (h : ip.a.toNat / 16 = 14) : IsGroup (.v4 ip)
  | v6 {ip : Ipv6} {first : UInt16} {others : List UInt16} (hgroups : ip.groups = first :: others)
      (h : first.toNat / 256 = 255) : IsGroup (.v6 ip)

theorem IpAddress.isMulticast_iff (ip : IpAddress) : ip.isMulticast = true ↔ ip.IsGroup := by
  cases ip with
  | v4 ip =>
    have hbits : ip.isMulticast = true ↔ ip.a.toNat / 16 = 14 := by
      simp only [Ipv4.isMulticast, Bool.and_eq_true, decide_eq_true_eq]
      omega
    exact hbits.trans ⟨.v4, fun h => by cases h; assumption⟩
  | v6 ip =>
    obtain ⟨groups, hlength⟩ := ip
    obtain ⟨first, others, rfl⟩ := List.exists_cons_of_ne_nil (List.ne_nil_of_length_eq_add_one hlength)
    have hbits : 0xFF00 ≤ first.toNat ↔ first.toNat / 256 = 255 := by
      have hlt := first.toNat_lt
      omega
    simp only [IpAddress.isMulticast, Ipv6.isMulticast, decide_eq_true_eq, hbits]
    refine ⟨.v6 rfl, fun h => ?_⟩
    obtain - | ⟨hgroups, h⟩ := h
    cases hgroups
    exact h

end Net

open WireBench.Net

/-- Whether a datagram can be addressed to an address so: to all of a link only in the older family,
and to a group only at the address of one. -/
inductive Delivery.Suits : Delivery → IpAddress → Prop where
  | unicast (ip : IpAddress) : Suits .unicast ip
  | broadcast (ip : Ipv4) : Suits .broadcast (.v4 ip)
  | multicast (hops : Nat) {ip : IpAddress} (h : ip.IsGroup) : Suits (.multicast hops) ip

namespace Datagram

variable {network : Network} {target : SocketAddress} {delivery : Delivery}

theorem send_of_suits (hgrants : network.GrantsSending) (h : delivery.Suits target.ip)
    (payload : Bytes) : send network target delivery payload = .ok ⟨target, payload⟩ := by
  obtain ⟨socket, hsocket⟩ : ∃ socket, openSocket network target delivery = .ok socket := by
    unfold openSocket
    generalize target.ip = ip at h
    cases h with
    | unicast => exact ⟨_, rfl⟩
    | broadcast => exact ⟨_, rfl⟩
    | multicast hops hgroup =>
      simp only [(IpAddress.isMulticast_iff ip).2 hgroup, if_true, hgrants.setHops_eq]
      exact ⟨_, rfl⟩
  simp only [send, hsocket, hgrants.send_eq]

theorem send_of_not_suits (h : ¬ delivery.Suits target.ip) (payload : Bytes) :
    ∃ error, send network target delivery payload = .error error := by
  obtain ⟨error, herror⟩ : ∃ error, openSocket network target delivery = .error error := by
    unfold openSocket
    generalize target.ip = ip at h
    cases delivery with
    | unicast => exact absurd (.unicast ip) h
    | broadcast =>
      cases ip with
      | v4 ip => exact absurd (.broadcast ip) h
      | v6 ip => exact ⟨_, rfl⟩
    | multicast hops =>
      have hgroup : ip.isMulticast ≠ true := fun hgroup =>
        h (.multicast hops ((IpAddress.isMulticast_iff ip).1 hgroup))
      exact ⟨.notMulticast ip, if_neg hgroup⟩
  exact ⟨error, by simp only [send, herror]⟩

end Datagram

namespace Program.Fixtures

/-! ### What a command line tells of a datagram -/

/-- Whether these are the steps that a command line allows a datagram in a group: the last number
that it tells, or the default if it tells none. -/
inductive TellsHops (inv : Invocation) : Nat → Prop where
  | untold (h : inv.get? "ttl" = none) : TellsHops inv Delivery.defaultHops
  | told {text : String} {n : Nat} (h : inv.get? "ttl" = some text) (hn : Numeral.Spells text n)
      (hle : n ≤ Numeral.wordLimit) : TellsHops inv n

/-- Whether a word stands for this way of addressing, whatever the case of its letters. -/
inductive TellsDelivery (inv : Invocation) (word : String) : Delivery → Prop where
  | unicast (h : Text.asciiLowercase word = "unicast") : TellsDelivery inv word .unicast
  | broadcast (h : Text.asciiLowercase word = "broadcast") : TellsDelivery inv word .broadcast
  | multicast {hops : Nat} (h : Text.asciiLowercase word = "multicast") (hhops : TellsHops inv hops) :
      TellsDelivery inv word (.multicast hops)

/-- Whether two arguments are the text of an address and the numeral of a port. -/
inductive TellsTarget (ip port : String) : SocketAddress → Prop where
  | address {address : IpAddress} {n : Nat} (hip : IpAddress.ofText? ip = some address)
      (hport : Numeral.Spells port n) (hle : n ≤ Numeral.portLimit) :
      TellsTarget ip port (.ofIp address (UInt16.ofNat n))

/-- Whether an argument list asks for a datagram with this message to be sent so to this target. -/
inductive Asks (args : List String) : Delivery → SocketAddress → String → Prop where
  | datagram {inv : Invocation} {mode ip port : String} {more : List String} {delivery : Delivery}
      {target : SocketAddress} (hparse : CommandLine.parse rules args = .ok inv)
      (hpositionals : inv.positionals = "udp-send" :: mode :: ip :: port :: more)
      (hdelivery : TellsDelivery inv mode delivery) (htarget : TellsTarget ip port target)
      (hsuits : delivery.Suits target.ip) : Asks args delivery target (more.headD defaultPayload)

variable {inv inv' : Invocation} {args args' : List String} {word : String}
  {delivery : Delivery} {target : SocketAddress} {message : String} {world : World}

theorem ofText?_iff (word : String) :
    (Delivery.ofText? word = some .unicast ↔ Text.asciiLowercase word = "unicast") ∧
      (Delivery.ofText? word = some .broadcast ↔ Text.asciiLowercase word = "broadcast") ∧
      ∀ hops, Delivery.ofText? word = some (.multicast hops) ↔
        Text.asciiLowercase word = "multicast" ∧ hops = Delivery.defaultHops := by
  have hunicast : Text.lowercase word = "unicast" ↔ Text.asciiLowercase word = "unicast" :=
    Text.lowercase_eq_iff_asciiLowercase (Text.forall_mem_ofList rfl)
  have hbroadcast : Text.lowercase word = "broadcast" ↔ Text.asciiLowercase word = "broadcast" :=
    Text.lowercase_eq_iff_asciiLowercase (Text.forall_mem_ofList rfl)
  have hmulticast : Text.lowercase word = "multicast" ↔ Text.asciiLowercase word = "multicast" :=
    Text.lowercase_eq_iff_asciiLowercase (Text.forall_mem_ofList rfl)
  rw [← hunicast, ← hbroadcast, ← hmulticast, Delivery.ofText?]
  generalize Text.lowercase word = lowered
  split <;> simp_all [@eq_comm Nat]

theorem readDelivery_eq_ok_iff : readDelivery inv word = .ok delivery ↔
    TellsDelivery inv word delivery := by
  obtain ⟨hunicast, hbroadcast, hmulticast⟩ := ofText?_iff word
  constructor
  · intro h
    rw [readDelivery] at h
    cases hmode : Delivery.ofText? word with
    | none =>
      rw [hmode] at h
      cases h
    | some mode =>
      rw [hmode] at h
      cases mode with
      | unicast =>
        cases h
        exact .unicast (hunicast.1 hmode)
      | broadcast =>
        cases h
        exact .broadcast (hbroadcast.1 hmode)
      | multicast hops =>
        obtain ⟨hword, rfl⟩ := (hmulticast hops).1 hmode
        cases htold : inv.get? "ttl" with
        | none =>
          simp only [htold] at h
          cases h
          exact .multicast hword (.untold htold)
        | some text =>
          simp only [htold] at h
          cases hread : Numeral.read Numeral.wordLimit text with
          | error error =>
            simp only [hread] at h
            cases h
          | ok n =>
            simp only [hread] at h
            cases h
            obtain ⟨hn, hle⟩ := Numeral.read_eq_ok_iff.1 hread
            exact .multicast hword (.told htold hn hle)
  · rintro (hword | hword | ⟨hword, hhops⟩)
    · simp only [readDelivery, hunicast.2 hword]
    · simp only [readDelivery, hbroadcast.2 hword]
    · have hmode := (hmulticast _).2 ⟨hword, rfl⟩
      cases hhops with
      | untold htold => simp only [readDelivery, hmode, htold]
      | told htold hn hle =>
        simp only [readDelivery, hmode, htold, Numeral.read_eq_ok_iff.2 ⟨hn, hle⟩]

theorem readTarget_eq_ok_iff : readTarget args = .ok target ↔
    ∃ ip port more, args = ip :: port :: more ∧ TellsTarget ip port target := by
  constructor
  · intro h
    rcases args with _ | ⟨ip, _ | ⟨port, more⟩⟩
    · cases h
    · cases h
    · refine ⟨ip, port, more, rfl, ?_⟩
      cases hip : IpAddress.ofText? ip with
      | none =>
        simp only [readTarget, readIp, hip] at h
        cases h
      | some address =>
        cases hport : Numeral.read Numeral.portLimit port with
        | error error =>
          simp only [readTarget, readIp, readPort, hip, hport] at h
          cases h
        | ok n =>
          simp only [readTarget, readIp, readPort, hip, hport] at h
          cases h
          obtain ⟨hn, hle⟩ := Numeral.read_eq_ok_iff.1 hport
          exact .address hip hn hle
  · rintro ⟨ip, port, more, rfl, @⟨address, n, hip, hn, hle⟩⟩
    simp only [readTarget, readIp, readPort, hip, Numeral.read_eq_ok_iff.2 ⟨hn, hle⟩]
    rfl

/-! ### What is read of it -/

theorem ofInvocation_datagram (h : inv.positionals = "udp-send" :: word :: args) :
    Command.ofInvocation inv = (readDelivery inv word).bind fun delivery =>
      (readTarget args).map fun target =>
        .datagram delivery target (args[2]?.getD defaultPayload) := by
  simp only [Command.ofInvocation, h]
  cases readDelivery inv word <;> rfl

theorem run_of_refused {error : UsageError} (h : CommandLine.parse rules args = .error error) :
    run world args = .failed 2 (error.message ++ "\n" ++ usage) := by
  simp only [run, h]

theorem run_of_no_command {error : CommandError} (hparse : CommandLine.parse rules args = .ok inv)
    (h : Command.ofInvocation inv = .error error) : run world args = failure error.message := by
  simp only [run, hparse, h]

theorem run_of_command {command : Command} (hparse : CommandLine.parse rules args = .ok inv)
    (h : Command.ofInvocation inv = .ok command) : run world args = command.run world := by
  simp only [run, hparse, h]

theorem Asks.exists_ofInvocation (h : Asks args delivery target message) :
    ∃ inv, CommandLine.parse rules args = .ok inv ∧
      Command.ofInvocation inv = .ok (.datagram delivery target message) := by
  obtain @⟨inv, mode, ip, port, more, _, _, hparse, hpositionals, hdelivery, htarget, -⟩ := h
  refine ⟨inv, hparse, ?_⟩
  have hmessage : (ip :: port :: more)[2]?.getD defaultPayload = more.headD defaultPayload := by
    cases more <;> rfl
  rw [ofInvocation_datagram hpositionals, readDelivery_eq_ok_iff.2 hdelivery,
    readTarget_eq_ok_iff.2 ⟨ip, port, more, rfl, htarget⟩]
  simp only [Except.bind, Except.map, hmessage]

theorem run_of_asks (hgrants : world.network.GrantsSending)
    (h : Asks args delivery target message) :
    run world args = .succeeded ("Sent: " ++ Clock.stamped message world.now)
      [⟨target, Utf8.encode (Clock.stamped message world.now)⟩] := by
  obtain ⟨inv, hparse, hcommand⟩ := h.exists_ofInvocation
  obtain ⟨-, -, -, -, hsuits⟩ := h
  rw [run_of_command hparse hcommand]
  simp only [Command.run, Datagram.send_of_suits hgrants hsuits]

/-- A command line for datagrams that asks for none fails, before anything is sent. -/
theorem run_of_not_asks (hparse : CommandLine.parse rules args = .ok inv)
    (hfirst : inv.positionals.head? = some "udp-send")
    (h : ∀ delivery target message, ¬ Asks args delivery target message) :
    ∃ message, run world args = failure message := by
  obtain ⟨rest, hpositionals⟩ := List.head?_eq_some_iff.1 hfirst
  cases rest with
  | nil =>
    have hcommand : Command.ofInvocation inv = .error .noMode := by
      simp only [Command.ofInvocation, hpositionals]
    exact ⟨_, run_of_no_command hparse hcommand⟩
  | cons mode rest =>
    have hcommand := ofInvocation_datagram hpositionals
    cases hdelivery : readDelivery inv mode with
    | error error =>
      rw [hdelivery] at hcommand
      exact ⟨_, run_of_no_command hparse hcommand⟩
    | ok delivery =>
      cases htarget : readTarget rest with
      | error error =>
        rw [hdelivery, htarget] at hcommand
        exact ⟨_, run_of_no_command hparse hcommand⟩
      | ok target =>
        rw [hdelivery, htarget] at hcommand
        obtain ⟨ip, port, more, rfl, htold⟩ := readTarget_eq_ok_iff.1 htarget
        have hsuits : ¬ delivery.Suits target.ip := fun hsuits =>
          h _ _ _ (.datagram hparse hpositionals (readDelivery_eq_ok_iff.1 hdelivery) htold hsuits)
        obtain ⟨error, herror⟩ := @Datagram.send_of_not_suits world.network _ _ hsuits
          (Utf8.encode (Clock.stamped ((ip :: port :: more)[2]?.getD defaultPayload) world.now))
        refine ⟨error.message, (run_of_command hparse hcommand).trans ?_⟩
        simp only [Command.run, herror]

/-! ### What makes no difference -/

theorem readDelivery_congr
    (h : Text.asciiLowercase word = "multicast" → inv'.get? "ttl" = inv.get? "ttl") :
    readDelivery inv' word = readDelivery inv word := by
  rw [readDelivery, readDelivery]
  cases hmode : Delivery.ofText? word with
  | none => rfl
  | some mode =>
    cases mode with
    | unicast => rfl
    | broadcast => rfl
    | multicast hops =>
      obtain ⟨-, -, hmulticast⟩ := ofText?_iff word
      simp only [h ((hmulticast hops).1 hmode).1]

theorem readTarget_take (args : List String) : readTarget (args.take 2) = readTarget args := by
  rcases args with _ | ⟨ip, _ | ⟨port, more⟩⟩ <;> rfl

/-- Of the positional arguments of a command for datagrams only the first five make a difference,
and of the options only the steps in a group, and these only if one is addressed. -/
theorem run_congr (hparse : CommandLine.parse rules args = .ok inv)
    (hparse' : CommandLine.parse rules args' = .ok inv')
    (hfirst : inv.positionals.head? = some "udp-send")
    (hpositionals : inv'.positionals.take 5 = inv.positionals.take 5)
    (hhops : ∀ mode, inv.positionals[1]? = some mode → Text.asciiLowercase mode = "multicast" →
      inv'.get? "ttl" = inv.get? "ttl") : run world args' = run world args := by
  have hcommand : Command.ofInvocation inv' = Command.ofInvocation inv := by
    obtain ⟨rest, hrest⟩ := List.head?_eq_some_iff.1 hfirst
    rw [hrest] at hpositionals hhops
    obtain ⟨rest', hrest', htake⟩ : ∃ rest', inv'.positionals = "udp-send" :: rest' ∧
        rest'.take 4 = rest.take 4 := by
      cases hshape : inv'.positionals with
      | nil => simp [hshape] at hpositionals
      | cons first rest' =>
        rw [hshape] at hpositionals
        obtain ⟨rfl, htake⟩ := List.cons.inj hpositionals
        exact ⟨rest', rfl, htake⟩
    cases rest with
    | nil =>
      obtain rfl : rest' = [] := by simpa using htake
      simp only [Command.ofInvocation, hrest, hrest']
    | cons mode rest =>
      cases rest' with
      | nil => cases htake
      | cons mode' rest' =>
        obtain ⟨rfl, hmore⟩ := List.cons.inj htake
        have hdelivery := @readDelivery_congr inv inv' mode' (hhops mode' rfl)
        have htarget : readTarget rest' = readTarget rest := by
          have htwo := congrArg (List.take 2) hmore
          rw [List.take_take, List.take_take] at htwo
          rw [← readTarget_take rest', ← readTarget_take rest]
          exact congrArg readTarget htwo
        have hmessage : rest'[2]? = rest[2]? := by
          have hthird := congrArg (fun args : List String => args[2]?) hmore
          simpa using hthird
        rw [ofInvocation_datagram hrest, ofInvocation_datagram hrest', hdelivery, htarget, hmessage]
  simp only [run, hparse, hparse', hcommand]

/-! ### All together -/

/-- A command line for datagrams, or one that is refused, sends exactly one datagram if it asks for
one, to the target that it tells and with its message behind the stamp of the moment; otherwise it
sends none, and the exit code is 2 if the command line is refused and 1 if it is not. What stands
behind the first five positional arguments makes no difference, nor do the steps in a group unless
one is addressed. -/
theorem sends_one_datagram_or_none (world : World) (hgrants : world.network.GrantsSending)
    (args : List String)
    (hfirst : ∀ inv, CommandLine.parse rules args = .ok inv →
      inv.positionals.head? = some "udp-send") :
    ∃ report, run world args = .ended report ∧
      (report.sent.length = 1 ↔ ∃ delivery target message, Asks args delivery target message) ∧
      (∀ delivery target message, Asks args delivery target message → report.code = 0 ∧
        report.sent =
          [⟨target, Utf8.encode ("[" ++ Clock.stamp world.now ++ "] " ++ message)⟩]) ∧
      (0 ≤ world.now.date.year → world.now.date.year ≤ 9999 →
        Clock.IsStamp world.now.date world.now.time (Clock.stamp world.now) ∧
          (Utf8.encode (Clock.stamp world.now)).length = 19) ∧
      ((∀ delivery target message, ¬ Asks args delivery target message) → report.sent = [] ∧
        (report.code = 2 ↔ ∃ error, CommandLine.parse rules args = .error error) ∧
        (report.code = 1 ↔ ∃ inv, CommandLine.parse rules args = .ok inv)) ∧
      ∀ args' inv inv', CommandLine.parse rules args = .ok inv →
        CommandLine.parse rules args' = .ok inv' →
          inv'.positionals.take 5 = inv.positionals.take 5 →
            (∀ mode, inv.positionals[1]? = some mode → Text.asciiLowercase mode = "multicast" →
              inv'.get? "ttl" = inv.get? "ttl") → run world args' = .ended report := by
  have hcongr : ∀ args' inv inv', CommandLine.parse rules args = .ok inv →
      CommandLine.parse rules args' = .ok inv' →
        inv'.positionals.take 5 = inv.positionals.take 5 →
          (∀ mode, inv.positionals[1]? = some mode → Text.asciiLowercase mode = "multicast" →
            inv'.get? "ttl" = inv.get? "ttl") → run world args' = run world args :=
    fun args' inv inv' hparse hparse' => run_congr hparse hparse' (hfirst inv hparse)
  have hstamp : 0 ≤ world.now.date.year → world.now.date.year ≤ 9999 →
      Clock.IsStamp world.now.date world.now.time (Clock.stamp world.now) ∧
        (Utf8.encode (Clock.stamp world.now)).length = 19 := fun hfrom hto =>
    ⟨Clock.isStamp_stamp hfrom hto, (Clock.isStamp_stamp hfrom hto).length_encode⟩
  by_cases hasks : ∃ delivery target message, Asks args delivery target message
  · obtain ⟨delivery, target, message, hasked⟩ := hasks
    have hrun := @run_of_asks _ _ _ _ world hgrants hasked
    refine ⟨_, hrun, ⟨fun _ => ⟨_, _, _, hasked⟩, fun _ => rfl⟩, fun delivery' target' message' h => ?_,
      hstamp, fun hnone => absurd hasked (hnone _ _ _), ?_⟩
    · have hsame := Outcome.ended.inj (hrun.symm.trans (run_of_asks hgrants h))
      have hsent := congrArg Report.sent hsame
      rw [Clock.stamped_eq message'] at hsent
      exact ⟨rfl, hsent⟩
    · intro args' inv inv' hparse hparse' hpositionals hhops
      exact (hcongr args' inv inv' hparse hparse' hpositionals hhops).trans hrun
  · have hnone : ∀ delivery target message, ¬ Asks args delivery target message :=
      fun delivery target message h => hasks ⟨_, _, _, h⟩
    obtain ⟨code, text, hrun, hcode⟩ : ∃ code text, run world args = .failed code text ∧
        (code = 2 ∧ (∃ error, CommandLine.parse rules args = .error error) ∨
          code = 1 ∧ ∃ inv, CommandLine.parse rules args = .ok inv) := by
      cases hparse : CommandLine.parse rules args with
      | error error =>
        exact ⟨_, _, run_of_refused hparse, .inl ⟨rfl, error, rfl⟩⟩
      | ok inv =>
        obtain ⟨text, hrun⟩ := @run_of_not_asks _ _ world hparse (hfirst inv hparse) hnone
        exact ⟨_, _, hrun, .inr ⟨rfl, inv, rfl⟩⟩
    refine ⟨_, hrun, ⟨fun h => ?_, fun h => absurd h hasks⟩, fun _ _ _ h => absurd h (hnone _ _ _),
      hstamp, fun _ => ⟨rfl, ?_, ?_⟩, ?_⟩
    · cases h
    · rcases hcode with ⟨rfl, error, hparse⟩ | ⟨rfl, inv, hparse⟩ <;> simp [hparse]
    · rcases hcode with ⟨rfl, error, hparse⟩ | ⟨rfl, inv, hparse⟩ <;> simp [hparse]
    · intro args' inv inv' hparse hparse' hpositionals hhops
      exact (hcongr args' inv inv' hparse hparse' hpositionals hhops).trans hrun

/-- A datagram to a group, with more arguments than are needed and a plus sign before the port. -/
theorem sends_one_datagram_to_group :
    let world : World := ⟨.granting, ⟨1735787045, false, 0⟩, fun _ => none⟩
    let args :=
      ["udp-send", "MultiCast", "239.255.0.1", "+12350", "hi", "extra", "--ttl", "4"]
    ∃ report, run world args = .ended report ∧ report.code = 0 ∧
      report.sent = [⟨.v4 ⟨239, 255, 0, 1⟩ 12350, Utf8.encode "[2025-01-02 03:04:05] hi"⟩] := by
  intro world args
  have hgrants : world.network.GrantsSending := ⟨fun _ => rfl, fun _ _ => rfl⟩
  have hnames : (rules.map OptionRule.name).Nodup := by decide
  have hsegments : CommandLine.Segmented rules (CommandLine.cutAtEnd args).1
      [.positional "udp-send", .positional "MultiCast", .positional "239.255.0.1",
        .positional "+12350", .positional "hi", .positional "extra",
        .single "--ttl" ⟨"ttl", ["t"], false⟩ "4"] := by
    change CommandLine.Segmented rules args _
    iterate 6 refine .positional (by decide) ?_
    exact .single (by decide) rfl (by decide) .done
  have hparse := CommandLine.parse_of_segmented hsegments
  have hrecords := CommandLine.records_of_parse hnames hsegments hparse
  have hpositionals := hrecords.positionals
  have hvalues := hrecords.single ⟨"ttl", ["t"], false⟩ (by decide) rfl
  generalize hinv : Invocation.addPositionals _ _ = inv at hparse hpositionals hvalues
  have hhops : TellsHops inv 4 := by
    obtain ⟨hn, hle⟩ := Numeral.read_eq_ok_iff.1
      (by decide +kernel : Numeral.read Numeral.wordLimit "4" = .ok 4)
    refine .told ?_ hn hle
    rw [Invocation.get?, hvalues]
    rfl
  have htarget : TellsTarget "239.255.0.1" "+12350" (.v4 ⟨239, 255, 0, 1⟩ 12350) := by
    obtain ⟨hn, hle⟩ := Numeral.read_eq_ok_iff.1
      (by decide +kernel : Numeral.read Numeral.portLimit "+12350" = .ok 12350)
    exact @TellsTarget.address _ _ (.v4 ⟨239, 255, 0, 1⟩) _ (by decide +kernel) hn hle
  have hasks : Asks args (.multicast 4) (.v4 ⟨239, 255, 0, 1⟩ 12350) "hi" :=
    .datagram hparse hpositionals (.multicast (by decide +kernel) hhops) htarget
      (.multicast 4 (.v4 (by decide)))
  obtain ⟨report, hrun, -, hsent, -⟩ := sends_one_datagram_or_none world hgrants args
    (fun inv' h => by
      rw [hparse] at h
      cases h
      rw [hpositionals]
      rfl)
  have hstamp : "[" ++ Clock.stamp world.now ++ "] " ++ "hi" = "[2025-01-02 03:04:05] hi" := by
    decide +kernel
  obtain ⟨hcode, hsent⟩ := hsent _ _ _ hasks
  exact ⟨report, hrun, hcode, hstamp ▸ hsent⟩

end Program.Fixtures

end WireBench
