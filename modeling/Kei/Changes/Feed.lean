import Kei.Changes
import Kei.Lib.Endings

/-!
# Kei.Changes.Feed

The task that reads a feed page by page, and a consumer of what it sends.

Events go through a channel with room for 200; the token of the last page is
sent once, when everything else is.  A sender waits for room as long as the
receiver is there, and a receiver that is dropped makes every sending fail.
-/

namespace Kei.Changes

/-! ## the feed -/

/-- What is answered to the requests of a stream, one after the other. -/
inductive Feed where
  /-- No page: the request, the response or the zone has an error. -/
  | failed (error : String)
  | last (records : List Record) (syncToken : String)
  /-- A page with more coming. -/
  | more (records : List Record) (syncToken : String) (rest : Feed)

/-- An event, or the error that ends the stream. -/
abbrev Message := Except String ChangeEvent

variable (host : Host) (drain : DrainOrder)

/-- What is sent once the pages are read. -/
def flushed (buffer : DeltaRecordBuffer) (streamError : Option String) : List Message :=
  (buffer.flush drain).map .ok ++ (streamError.map .error).toList

/-- What is sent from a request on. -/
def Feed.messages : DeltaRecordBuffer → Feed → List Message
  | buffer, .failed error => flushed drain buffer (some error)
  | buffer, .last records _ =>
      let (buffer, events) := buffer.processRecords host records
      events.map .ok ++ flushed drain buffer none
  | buffer, .more records _ rest =>
      let (buffer, events) := buffer.processRecords host records
      events.map .ok ++ Feed.messages buffer rest

/-! ## the producer -/

/-- Where the task of `changes_stream` is. -/
inductive Producer where
  /-- It makes the next request. -/
  | requesting (buffer : DeltaRecordBuffer) (currentToken : String) (feed : Feed)
  /-- It sends the events of a page, and then requests `rest` if more is coming. -/
  | sending (events : List ChangeEvent) (buffer : DeltaRecordBuffer) (currentToken : String)
      (rest : Option Feed)
  /-- It sends what the buffer had left. -/
  | flushing (events : List ChangeEvent) (currentToken : String) (streamError : Option String)
  /-- It has sent all, or nobody receives, and the token is left. -/
  | sendingToken (currentToken : String)
  | finished

/-- What the producer does next. -/
inductive Act where
  | goOn (next : Producer)
  /-- It sends, and goes on with `closed` if the receiver is gone. -/
  | send (message : Message) (sent closed : Producer)
  | sendToken (token : String)
  | nothing

def Producer.act : Producer → Act
  | .requesting buffer currentToken (.failed error) =>
      .goOn (.flushing (buffer.flush drain) currentToken (some error))
  | .requesting buffer _ (.last records syncToken) =>
      let (buffer, events) := buffer.processRecords host records
      .goOn (.sending events buffer syncToken none)
  | .requesting buffer _ (.more records syncToken rest) =>
      let (buffer, events) := buffer.processRecords host records
      .goOn (.sending events buffer syncToken (some rest))
  | .sending (event :: events) buffer currentToken rest =>
      .send (.ok event) (.sending events buffer currentToken rest) (.sendingToken currentToken)
  | .sending [] buffer currentToken (some rest) => .goOn (.requesting buffer currentToken rest)
  | .sending [] buffer currentToken none =>
      .goOn (.flushing (buffer.flush drain) currentToken none)
  | .flushing (event :: events) currentToken streamError =>
      .send (.ok event) (.flushing events currentToken streamError) (.sendingToken currentToken)
  -- The error is sent whether or not somebody receives it.
  | .flushing [] currentToken (some error) =>
      .send (.error error) (.sendingToken currentToken) (.sendingToken currentToken)
  | .flushing [] currentToken none => .goOn (.sendingToken currentToken)
  | .sendingToken token => .sendToken token
  | .finished => .nothing

/-- What the producer has still to send. -/
def Producer.messages : Producer → List Message
  | .requesting buffer _ feed => feed.messages host drain buffer
  | .sending events buffer _ (some rest) => events.map .ok ++ rest.messages host drain buffer
  | .sending events buffer _ none => events.map .ok ++ flushed drain buffer none
  | .flushing events _ streamError => events.map .ok ++ (streamError.map .error).toList
  | .sendingToken _ | .finished => []

/-! ## consumers -/

/-- How a consumer stands to the stream. -/
inductive Stance where
  /-- It asks for the next message. -/
  | reading
  | busy
  /-- It has left the loop, and waits for the token. -/
  | waiting
  /-- It is done, and has dropped its ends of the channels. -/
  | finished
  deriving DecidableEq

/-- A consumer of the stream. -/
structure Consumer (κ : Type) where
  start : κ
  stance : κ → Stance
  /-- It has got a message, with shutdown requested or not. -/
  take : κ → Bool → Message → κ
  /-- All is taken, and the sender is gone. -/
  ended : κ → κ
  receiveToken : κ → String → κ
  /-- What else can happen to it. -/
  others : κ → κ → Prop

/-! ## the system -/

/-- Room for events in the channel. -/
def channelCapacity : Nat := 200

structure System (κ : Type) where
  producer : Producer
  queue : List Message
  token : Option String
  shutdown : Bool
  consumer : κ

variable {κ : Type} (c : Consumer κ)

/-- The stream of a feed from a token on. -/
def Consumer.initial (initialToken : String) (feed : Feed) : System κ :=
  ⟨.requesting .new initialToken feed, [], none, false, c.start⟩

/-- Somebody receives what is sent. -/
def Consumer.Receives (s : System κ) : Prop := c.stance s.consumer ≠ .finished

/-- The steps of the producer, of the consumer and of what is around them. -/
inductive Consumer.Step : System κ → System κ → Prop
  | goOn {s : System κ} {next : Producer} (h : s.producer.act host drain = .goOn next) :
      Step s { s with producer := next }
  | send {s : System κ} {message : Message} {sent closed : Producer}
      (h : s.producer.act host drain = .send message sent closed) (hreceives : c.Receives s)
      (hroom : s.queue.length < channelCapacity) :
      Step s { s with producer := sent, queue := s.queue ++ [message] }
  | sendClosed {s : System κ} {message : Message} {sent closed : Producer}
      (h : s.producer.act host drain = .send message sent closed) (hclosed : ¬c.Receives s) :
      Step s { s with producer := closed }
  | sendToken {s : System κ} {token : String}
      (h : s.producer.act host drain = .sendToken token) :
      Step s { s with producer := .finished, token := some token }
  | take {s : System κ} {message : Message} {queue : List Message}
      (h : c.stance s.consumer = .reading) (hqueue : s.queue = message :: queue) :
      Step s { s with queue := queue, consumer := c.take s.consumer s.shutdown message }
  | ended {s : System κ} (h : c.stance s.consumer = .reading) (hqueue : s.queue = [])
      (hgone : s.producer = .finished) : Step s { s with consumer := c.ended s.consumer }
  | receiveToken {s : System κ} {token : String} (h : c.stance s.consumer = .waiting)
      (htoken : s.token = some token) :
      Step s { s with consumer := c.receiveToken s.consumer token }
  | others {s : System κ} {next : κ} (h : c.others s.consumer next) :
      Step s { s with consumer := next }
  | shutdown {s : System κ} (h : s.shutdown = false) : Step s { s with shutdown := true }

/-- The producer waits for space. -/
def Consumer.Blocked (s : System κ) : Prop :=
  ∃ message sent closed, s.producer.act host drain = .send message sent closed ∧
    c.Receives s ∧ channelCapacity ≤ s.queue.length

/-- The two waits have met. -/
def Consumer.Meets (s : System κ) : Prop :=
  c.stance s.consumer = .waiting ∧ c.Blocked host drain s

/-- Both sides are done. -/
def Consumer.Done (s : System κ) : Prop :=
  s.producer = .finished ∧ c.stance s.consumer = .finished

/-- The two sides never wait for each other, and every run ends with both of them done. -/
def Consumer.Finishes (initialToken : String) (feed : Feed) : Prop :=
  (∀ s, Relation.ReflTransGen (c.Step host drain) (c.initial initialToken feed) s →
    ¬c.Meets host drain s) ∧
  Endings.EndsIn (c.Step host drain) c.Done (c.initial initialToken feed)

/-! ## the collecting loop -/

/-- Where the loop of `download_photos_incremental_collecting_inner` is. -/
inductive Collecting where
  | reading (changeEvents : List ChangeEvent)
  | waiting (changeEvents : List ChangeEvent)
  | finished (result : Except String (List ChangeEvent × Option String))

def Collecting.stance : Collecting → Stance
  | .reading _ => .reading
  | .waiting _ => .waiting
  | .finished _ => .finished

/-- One turn of the loop.  The stream outlives it: only an error drops it. -/
def Collecting.take : Collecting → Bool → Message → Collecting
  | .reading changeEvents, true, _ => .waiting changeEvents
  | .reading _, false, .error error => .finished (.error error)
  | .reading changeEvents, false, .ok event => .reading (changeEvents ++ [event])
  | state, _, _ => state

def Collecting.ended : Collecting → Collecting
  | .reading changeEvents => .waiting changeEvents
  | state => state

def Collecting.receiveToken : Collecting → String → Collecting
  | .waiting changeEvents, token => .finished (.ok (changeEvents, some token))
  | state, _ => state

def collecting : Consumer Collecting where
  start := .reading []
  stance := Collecting.stance
  take := Collecting.take
  ended := Collecting.ended
  receiveToken := Collecting.receiveToken
  others _ _ := False

/-! ## the streaming loop -/

/-- What the consumer that hands the assets on depends on. -/
structure HandingOn where
  concurrentDownloads : Nat
  /-- The assets that are found for the events without one. -/
  hydrated : List ChangeEvent → List PhotoAsset

/-- The room for assets. -/
def HandingOn.capacity (on : HandingOn) : Nat := max (2 * on.concurrentDownloads) 1

/-- Where the task of `stream_incremental_assets_for_single_unfiled_pass` is. -/
inductive StreamingTask where
  | reading
  /-- It hands on the asset of an event. -/
  | forwarding (asset : PhotoAsset)
  /-- It has left the loop. -/
  | hydrating
  | forwardingRest (assets : List PhotoAsset)
  | waiting
  /-- It has returned, with the token if it got that far. -/
  | returned (result : Except String (Option String))
  | aborted

/-- The download that the assets are handed to. -/
inductive Downstream where
  | running
  | returned
  /-- It has returned an error, and the task is to be aborted. -/
  | failed
  deriving DecidableEq

structure Streaming where
  task : StreamingTask
  albumEvents : List ChangeEvent
  relationEvents : List ChangeEvent
  unpairedAssetEvents : List ChangeEvent
  /-- The assets on their way to the download. -/
  assets : List PhotoAsset
  downstream : Downstream

def Streaming.stance (s : Streaming) : Stance :=
  match s.task with
  | .reading => .reading
  | .waiting => .waiting
  | .returned _ | .aborted => .finished
  | _ => .busy

/-- What the loop does with an event. -/
def Streaming.observe (s : Streaming) (event : ChangeEvent) : Streaming :=
  if event.album.isSome then { s with albumEvents := s.albumEvents ++ [event] }
  else if event.relation.isSome then { s with relationEvents := s.relationEvents ++ [event] }
  else if event.tokenUnsafeReason.isSome then s
  else
    match event.reason with
    | .created =>
        match event.asset with
        | some asset => { s with task := .forwarding asset }
        | none =>
            if event.recordType = some "CPLAsset" then
              { s with unpairedAssetEvents := s.unpairedAssetEvents ++ [event] }
            else s
    -- The source state of the asset is written.
    | .softDeleted | .hardDeleted | .hidden => s

/-- One turn of the loop. -/
def Streaming.take (s : Streaming) (shutdown : Bool) (message : Message) : Streaming :=
  if shutdown then { s with task := .hydrating }
  else
    match message with
    | .error error => { s with task := .returned (.error error) }
    | .ok event => s.observe event

def Streaming.ended (s : Streaming) : Streaming := { s with task := .hydrating }

def Streaming.receiveToken (s : Streaming) (token : String) : Streaming :=
  { s with task := .returned (.ok (some token)) }

/-- The steps besides those on the stream. -/
inductive HandingOn.Other (on : HandingOn) : Streaming → Streaming → Prop
  | forward {s : Streaming} {asset : PhotoAsset} (h : s.task = .forwarding asset)
      (hrunning : s.downstream = .running) (hroom : s.assets.length < on.capacity) :
      Other on s { s with task := .reading, assets := s.assets ++ [asset] }
  | forwardClosed {s : Streaming} {asset : PhotoAsset} (h : s.task = .forwarding asset)
      (hclosed : s.downstream ≠ .running) : Other on s { s with task := .returned (.ok none) }
  | hydrate {s : Streaming} (h : s.task = .hydrating) :
      Other on s { s with task := .forwardingRest (on.hydrated s.unpairedAssetEvents) }
  | forwardRest {s : Streaming} {asset : PhotoAsset} {rest : List PhotoAsset}
      (h : s.task = .forwardingRest (asset :: rest)) (hrunning : s.downstream = .running)
      (hroom : s.assets.length < on.capacity) :
      Other on s { s with task := .forwardingRest rest, assets := s.assets ++ [asset] }
  | forwardRestClosed {s : Streaming} {asset : PhotoAsset} {rest : List PhotoAsset}
      (h : s.task = .forwardingRest (asset :: rest)) (hclosed : s.downstream ≠ .running) :
      Other on s { s with task := .returned (.ok none) }
  -- The album and relation events are applied, and the token is waited for.
  | applyDeltas {s : Streaming} (h : s.task = .forwardingRest []) :
      Other on s { s with task := .waiting }
  | download {s : Streaming} {asset : PhotoAsset} {rest : List PhotoAsset}
      (hrunning : s.downstream = .running) (h : s.assets = asset :: rest) :
      Other on s { s with assets := rest }
  | downstreamReturns {s : Streaming} (hrunning : s.downstream = .running) :
      Other on s { s with downstream := .returned, assets := [] }
  | downstreamFails {s : Streaming} (hrunning : s.downstream = .running) :
      Other on s { s with downstream := .failed, assets := [] }
  | abort {s : Streaming} (hfailed : s.downstream = .failed) (h : s.stance ≠ .finished) :
      Other on s { s with task := .aborted }

def streaming (on : HandingOn) : Consumer Streaming where
  start := ⟨.reading, [], [], [], [], .running⟩
  stance := Streaming.stance
  take := Streaming.take
  ended := Streaming.ended
  receiveToken := Streaming.receiveToken
  others := on.Other

end Kei.Changes
