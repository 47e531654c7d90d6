import BuildProbe.Cancel
/-!
One channel in use: tokens and waiters, numbered in the order they were made, under any sequence
of requests. Dropped tokens keep their number. Waiters outlive the token they were made from.
-/
namespace BuildProbe.Cancel

inductive Source where
  | shared
  | silent
  deriving DecidableEq, Repr

structure Waiter where
  source : Source
  wait : Wait
  deriving DecidableEq, Repr

structure Session where
  channel : Channel
  tokens : List (Option Source)
  waiters : List Waiter
  deriving DecidableEq, Repr

inductive Request where
  | signal
  | dropHandle
  | copy (token : Nat)
  | never
  | dropToken (token : Nat)
  | isSignalled (token : Nat)
  | wait (token : Nat)
  | poll (waiter : Nat)
  deriving DecidableEq, Repr

inductive Answer where
  | truth (b : Bool)
  | token (i : Nat)
  | poll (p : Poll)
  | nothing
  deriving DecidableEq, Repr

namespace Session

def start : Session := ⟨.fresh, [some .shared], []⟩

def channelOf (s : Session) : Source → Channel
  | .shared => s.channel
  | .silent => .never

def source? (s : Session) (token : Nat) : Option Source := (s.tokens[token]?).join

def joined (s : Session) : Source → Channel
  | .shared => s.channel.join
  | .silent => s.channel

def left (s : Session) : Source → Channel
  | .shared => s.channel.leave
  | .silent => s.channel

def answer (s : Session) : Request → Answer × Session
  | .signal => (.truth s.channel.hasHandle, { s with channel := s.channel.signal })
  | .dropHandle => (.truth s.channel.hasHandle, { s with channel := s.channel.dropHandle })
  | .copy token =>
    match s.source? token with
    | none => (.token s.tokens.length, { s with tokens := s.tokens ++ [none] })
    | some source =>
      (.token s.tokens.length,
        { s with tokens := s.tokens ++ [some source], channel := s.joined source })
  | .never => (.token s.tokens.length, { s with tokens := s.tokens ++ [some .silent] })
  | .dropToken token =>
    match s.source? token with
    | none => (.truth false, s)
    | some source =>
      (.truth true, { s with tokens := s.tokens.set token none, channel := s.left source })
  | .isSignalled token =>
    match s.source? token with
    | none => (.nothing, s)
    | some source => (.truth (s.channelOf source).signalled, s)
  | .wait token =>
    match s.source? token with
    | none => (.nothing, s)
    | some source =>
      let (p, w) := Wait.look (s.channelOf source)
      (.poll p, { s with waiters := s.waiters ++ [⟨source, w⟩], channel := s.joined source })
  | .poll waiter =>
    match s.waiters[waiter]? with
    | none => (.nothing, s)
    | some w =>
      let (p, wait) := w.wait.poll (s.channelOf w.source)
      (.poll p, { s with waiters := s.waiters.set waiter { w with wait := wait } })

def answers (s : Session) : List Request → List Answer
  | [] => []
  | r :: rs => (s.answer r).1 :: answers (s.answer r).2 rs

end Session
end BuildProbe.Cancel
