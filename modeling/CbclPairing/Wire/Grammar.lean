import CbclPairing.Codec.Cddl

/-! The closed grammar of version 1: one rule for each wire type, in the order
of the schema file. -/
namespace CbclPairing
namespace Wire
namespace Grammar
open Codec Codec.Cddl

def applicationId : Rule := tstr 1 96
def relayOrigin : Rule := tstr 1 255
def mailboxId : Rule := bstr 32 32
def membershipToken : Rule := bstr 32 32
def nameplate : Rule := range 0 999999999
def locator : Rule := choice [array [number 0, mailboxId], array [number 1, nameplate]]

def pairingInvitation : Rule := closedMap
  [required "version" (number 1),
    required "suite" (literal "CPACE25519-SHA512-D21"),
    required "application" applicationId,
    required "relay-origin" relayOrigin,
    required "locator" locator,
    required "secret" (bstr 1 64),
    optional "expected-allocator-key" (bstr 32 32),
    optional "expected-claimant-key" (bstr 32 32)]

/-! ### Client messages -/

def bind : List Member := [required "type" (literal "bind"), required "version" (number 1)]

def allocate : List Member :=
  [required "type" (literal "allocate"),
    required "locator-mode" (range 0 1),
    optional "ttl-seconds" (range 60 86400)]

def claim : List Member := [required "type" (literal "claim"), required "locator" locator]

def allocateV2 : List Member :=
  [required "type" (literal "allocate-v2"),
    required "mailbox-id" (bstr 32 32),
    required "claim-commitment" (bstr 32 32),
    optional "ttl-seconds" (number 900)]

def claimV2 : List Member :=
  [required "type" (literal "claim-v2"),
    required "mailbox-id" (bstr 32 32),
    required "claim-token" (bstr 16 16)]

def openMailbox : List Member :=
  [required "type" (literal "open"),
    required "mailbox-id" mailboxId,
    required "membership-token" membershipToken]

def put : List Member :=
  [required "type" (literal "put"),
    required "seq" (range 0 15),
    required "body" (bstr 1 69632)]

def ack : List Member := [required "type" (literal "ack"), required "peer-seq" (range 0 15)]

def close : List Member := [required "type" (literal "close")]

def ping : List Member := [required "type" (literal "ping")]

def clientMessage : Rule := choice
  [closedMap bind, closedMap allocate, closedMap claim, closedMap allocateV2, closedMap claimV2,
    closedMap openMailbox, closedMap put, closedMap ack, closedMap close, closedMap ping]

/-! ### Server messages -/

def welcome : List Member := [required "type" (literal "welcome"), required "version" (number 1)]

def allocated : List Member :=
  [required "type" (literal "allocated"),
    required "mailbox-id" mailboxId,
    required "membership-token" membershipToken,
    optional "nameplate" nameplate,
    required "expires-at" uint]

/-- The three replies that grant a membership without a nameplate. -/
def granted (kind : String) : List Member :=
  [required "type" (literal kind),
    required "mailbox-id" mailboxId,
    required "membership-token" membershipToken,
    required "expires-at" uint]

def claimed : List Member := granted "claimed"
def allocatedV2 : List Member := granted "allocated-v2"
def claimedV2 : List Member := granted "claimed-v2"

def frame : List Member :=
  [required "type" (literal "frame"),
    required "peer-seq" (range 0 15),
    required "body" (bstr 1 69632)]

def acknowledged : List Member :=
  [required "type" (literal "acknowledged"), required "seq" (range 0 15)]

def closed : List Member :=
  [required "type" (literal "closed"),
    required "reason"
      (choice [literal "closed", literal "crowded", literal "expired", literal "conflict"])]

def error : List Member :=
  [required "type" (literal "error"),
    required "code" (choice
      [number 400, number 404, number 409, number 410, number 413, number 429, number 503])]

def pong : List Member := [required "type" (literal "pong")]

def serverMessage : Rule := choice
  [closedMap welcome, closedMap allocated, closedMap claimed, closedMap allocatedV2,
    closedMap claimedV2, closedMap frame, closedMap acknowledged, closedMap closed,
    closedMap error, closedMap pong]

/-! ### Channel frames and application values -/

def cpaceMessage : Rule := array [number 1, range 0 1, bstr 32 32, bstr 1 128]

def cpaceFrame : List Member :=
  [required "v" (number 1),
    required "kind" (literal "cpace"),
    required "role" (range 0 1),
    required "control" (bstr 1 2048),
    required "message" (bstr 1 65536)]

def finishedFrame : List Member :=
  [required "v" (number 1),
    required "kind" (literal "finished"),
    required "role" (range 0 1),
    required "control" (bstr 1 2048),
    required "value" (bstr 64 64)]

def sealedFrame : List Member :=
  [required "v" (number 1),
    required "kind" (literal "sealed"),
    required "direction" (range 0 1),
    required "counter" uint,
    required "ciphertext" (bstr 17 69572)]

def cpaceChannelFrame : Rule := choice
  [closedMap cpaceFrame, closedMap finishedFrame, closedMap sealedFrame]

def sealedPlaintext : Rule := closedMap
  [required "control" (bstr 1 2048), optional "body" (bstr 1 65536)]

def pairingIntent : Rule := closedMap
  [required "type" (literal "intent"),
    required "application" applicationId,
    required "action" (tstr 1 64),
    required "allocator-claim" (bstr 1 8192),
    required "claimant-claim" (bstr 1 8192),
    required "authority-summary" (tstr 1 512),
    required "intent-nonce" (bstr 32 32)]

def pairingDecision : Rule := closedMap
  [required "type" (literal "decision"),
    required "intent-digest" (bstr 32 32),
    required "decision" (choice [literal "approve", literal "decline"])]

def applicationPayload : Rule := closedMap
  [required "type" (literal "payload"),
    required "intent-digest" (bstr 32 32),
    required "payload-type" (tstr 1 96),
    required "body" (bstr 1 64512)]

end Grammar
end Wire
end CbclPairing
