import GraphTally.Receipt.ReceivedReceipt

/-! The errors of the `core` crate that the modelled operations return. -/

open GraphTally.Theory

namespace GraphTally

inductive Error where
  | invalidSystemTime (sourceErrorMessage : String)
  | signatureError (source : Eip712Error)
  | invalidReceivedRav (receivedRav expectedRav : String)
  | adapterError (sourceError : String)
  | noValidReceiptsForRavRequest
  | ravCollectionIdMismatch (prevId newId : String)
  | ravCollectionIdNotUniform
  | duplicateReceiptSignature (signature : String)
  | receiptTimestampLowerThanRav (ravTs receiptTs : U64)
  | timestampRangeError (minTimestampNs maxTimestampNs : U64)
  | receiptError (source : ReceiptError)
  | invalidRecoveredSigner (address : Address)
  | failedToVerifySigner (source : String)
  deriving DecidableEq

/-! ## Texts -/

/-- `{}` of an `Eip712Error` is transparent. -/
def Eip712Error.text : Eip712Error → String
  | .walletError source => source
  | .signatureError source => source

/-- `{}` of an error. -/
def Error.text [AlloyText] : Error → String
  | .invalidSystemTime message => "Failed to get current system time: " ++ message ++ " "
  | .signatureError source => source.text
  | .invalidReceivedRav _ _ => "Received RAV does not match expected RAV"
  | .adapterError source => "Error from adapter.\n Caused by: " ++ source
  | .noValidReceiptsForRavRequest => "Failed to produce rav request, no valid receipts"
  | .ravCollectionIdMismatch prevId newId => "Previous RAV collection id (" ++ prevId ++
      ") doesn't match the collection id from the new receipt (" ++ newId ++ ")."
  | .ravCollectionIdNotUniform => "All receipts should have the same collection id, but they don't"
  | .duplicateReceiptSignature signature => "Duplicate receipt signature: " ++ signature
  | .receiptTimestampLowerThanRav ravTs receiptTs => "Receipt timestamp (" ++
      toString receiptTs.toNat ++ ") is less or equal than previous rav timestamp (" ++
      toString ravTs.toNat ++ ")"
  | .timestampRangeError min max => "Timestamp range error: min_timestamp_ns: " ++
      toString min.toNat ++ ", max_timestamp_ns: " ++ toString max.toNat ++
      ". Adjust timestamp buffer."
  | .receiptError source => "Receipt error: " ++ source.text
  | .invalidRecoveredSigner address =>
      "Recovered sender address invalid " ++ AlloyText.displayAddress address
  | .failedToVerifySigner source => "Failed to check the signer: " ++ source

end GraphTally
