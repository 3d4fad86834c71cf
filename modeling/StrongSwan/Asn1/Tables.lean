import StrongSwan.Asn1.AlgorithmIdentifier
import StrongSwan.Crypto.RsaPkcs1

/-!
# Object definition tables

The tables that the ASN.1 parser is used with, by the files they are in. Two of them are defined
where they are used: `algorithmIdentifierObjects` and `digestInfoObjects`. The older release in the
repository has the same tables, but for `pbkdf2ParamsObjects`.
-/

namespace StrongSwan

namespace Asn1Tables

/-! ## `asn1.c` -/

def Asn1.timeObjects : List Asn1Object :=
  [⟨0, asn1UtcTime, { option := true, body := true }⟩, -- utcTime
    ⟨0, asn1Eoc, { close := true }⟩,
    ⟨0, asn1GeneralizedTime, { option := true, body := true }⟩, -- generalizeTime
    ⟨0, asn1Eoc, { close := true }⟩,
    ⟨0, asn1Eoc, { exit := true }⟩]

/-! ## `signature_params.c` -/

def SignatureParams.rsassaPssParamsObjects : List Asn1Object :=
  [⟨0, asn1Sequence, {}⟩, -- RSASSA-PSS-params
    ⟨1, asn1ContextC 0, { default := true }⟩, -- DEFAULT SHA-1
    ⟨2, asn1Eoc, { raw := true }⟩, -- hashAlgorithm
    ⟨1, asn1ContextC 1, { default := true }⟩, -- DEFAULT MGF1SHA1
    ⟨2, asn1Eoc, { raw := true }⟩, -- maskGenAlgorithm
    ⟨1, asn1ContextC 2, { default := true }⟩, -- DEFAULT 20
    ⟨2, asn1Integer, { body := true }⟩, -- saltLength
    ⟨1, asn1ContextC 3, { default := true }⟩, -- DEFAULT 1
    ⟨2, asn1Integer, { body := true }⟩, -- trailerField
    ⟨0, asn1Eoc, { exit := true }⟩]

/-! ## `pkcs5.c` -/

def Pkcs5.pbeParameterObjects : List Asn1Object :=
  [⟨0, asn1Sequence, {}⟩, -- PBEParameter
    ⟨1, asn1OctetString, { body := true }⟩, -- salt
    ⟨1, asn1Integer, { body := true }⟩, -- iterationCount
    ⟨0, asn1Eoc, { exit := true }⟩]

def Pkcs5.pbkdf2ParamsObjects : List Asn1Object :=
  [⟨0, asn1Sequence, {}⟩, -- PBKDF2-params
    ⟨1, asn1OctetString, { body := true }⟩, -- salt
    ⟨1, asn1Integer, { body := true }⟩, -- iterationCount
    ⟨1, asn1Integer, { option := true, body := true }⟩, -- keyLength
    ⟨1, asn1Eoc, { close := true }⟩,
    ⟨1, asn1Sequence, { option := true, raw := true }⟩, -- prf
    ⟨1, asn1Eoc, { close := true }⟩,
    ⟨0, asn1Eoc, { exit := true }⟩]

def Pkcs5.pbes2ParamsObjects : List Asn1Object :=
  [⟨0, asn1Sequence, {}⟩, -- PBES2-params
    ⟨1, asn1Eoc, { raw := true }⟩, -- keyDerivationFunc
    ⟨1, asn1Eoc, { raw := true }⟩, -- encryptionScheme
    ⟨0, asn1Eoc, { exit := true }⟩]

/-! ## `bliss_private_key.c` -/

def BlissPrivateKey.privkeyObjects : List Asn1Object :=
  [⟨0, asn1Sequence, {}⟩, -- BLISSPrivateKey
    ⟨1, asn1Oid, { body := true }⟩, -- keyType
    ⟨1, asn1BitString, { body := true }⟩, -- public
    ⟨1, asn1BitString, { body := true }⟩, -- secret1
    ⟨1, asn1BitString, { body := true }⟩, -- secret2
    ⟨0, asn1Eoc, { exit := true }⟩]

/-! ## `bliss_public_key.c` -/

def BlissPublicKey.pubkeyObjects : List Asn1Object :=
  [⟨0, asn1Sequence, { obj := true }⟩, -- subjectPublicKeyInfo
    ⟨1, asn1Eoc, { raw := true }⟩, -- algorithm
    ⟨1, asn1BitString, { body := true }⟩, -- subjectPublicKey
    ⟨0, asn1Eoc, { exit := true }⟩]

/-! ## `curve25519_public_key.c` -/

def Curve25519PublicKey.pubkeyObjects : List Asn1Object :=
  [⟨0, asn1Sequence, {}⟩, -- subjectPublicKeyInfo
    ⟨1, asn1Eoc, { raw := true }⟩, -- algorithm
    ⟨1, asn1BitString, { body := true }⟩, -- subjectPublicKey
    ⟨0, asn1Eoc, { exit := true }⟩]

/-! ## `pkcs1_builder.c` -/

def Pkcs1Builder.pkinfoObjects : List Asn1Object :=
  [⟨0, asn1Sequence, {}⟩, -- subjectPublicKeyInfo
    ⟨1, asn1Eoc, { raw := true }⟩, -- algorithm
    ⟨1, asn1BitString, { body := true }⟩, -- subjectPublicKey
    ⟨0, asn1Eoc, { exit := true }⟩]

def Pkcs1Builder.pubkeyObjects : List Asn1Object :=
  [⟨0, asn1Sequence, { obj := true }⟩, -- RSAPublicKey
    ⟨1, asn1Integer, { body := true }⟩, -- modulus
    ⟨1, asn1Integer, { body := true }⟩, -- publicExponent
    ⟨0, asn1Eoc, { exit := true }⟩]

def Pkcs1Builder.privkeyObjects : List Asn1Object :=
  [⟨0, asn1Sequence, {}⟩, -- RSAPrivateKey
    ⟨1, asn1Integer, { body := true }⟩, -- version
    ⟨1, asn1Integer, { body := true }⟩, -- modulus
    ⟨1, asn1Integer, { body := true }⟩, -- publicExponent
    ⟨1, asn1Integer, { body := true }⟩, -- privateExponent
    ⟨1, asn1Integer, { body := true }⟩, -- prime1
    ⟨1, asn1Integer, { body := true }⟩, -- prime2
    ⟨1, asn1Integer, { body := true }⟩, -- exponent1
    ⟨1, asn1Integer, { body := true }⟩, -- exponent2
    ⟨1, asn1Integer, { body := true }⟩, -- coefficient
    ⟨1, asn1Sequence, { option := true, loop := true }⟩, -- otherPrimeInfos
    ⟨2, asn1Sequence, {}⟩, -- otherPrimeInfo
    ⟨3, asn1Integer, { body := true }⟩, -- prime
    ⟨3, asn1Integer, { body := true }⟩, -- exponent
    ⟨3, asn1Integer, { body := true }⟩, -- coefficient
    ⟨1, asn1Eoc, { close := true }⟩,
    ⟨0, asn1Eoc, { exit := true }⟩]

/-! ## `pkcs11_public_key.c` -/

def Pkcs11PublicKey.pkinfoObjects : List Asn1Object :=
  [⟨0, asn1Sequence, {}⟩, -- subjectPublicKeyInfo
    ⟨1, asn1Sequence, {}⟩, -- algorithmIdentifier
    ⟨2, asn1Oid, { body := true }⟩, -- algorithm
    ⟨2, asn1Oid, { raw := true }⟩, -- namedCurve
    ⟨1, asn1BitString, { body := true }⟩, -- subjectPublicKey
    ⟨0, asn1Eoc, { exit := true }⟩]

/-! ## `pkcs12_decode.c` -/

def Pkcs12Decode.certBagObjects : List Asn1Object :=
  [⟨0, asn1Sequence, { body := true }⟩, -- CertBag
    ⟨1, asn1Oid, { body := true }⟩, -- certId
    ⟨1, asn1ContextC 0, { body := true }⟩, -- certValue
    ⟨0, asn1Eoc, { exit := true }⟩]

def Pkcs12Decode.safeContentsObjects : List Asn1Object :=
  [⟨0, asn1Sequence, { loop := true }⟩, -- SafeContents
    ⟨1, asn1Sequence, { body := true }⟩, -- SafeBag
    ⟨2, asn1Oid, { body := true }⟩, -- bagId
    ⟨2, asn1ContextC 0, { body := true }⟩, -- bagValue
    ⟨2, asn1Set, { option := true, raw := true }⟩, -- bagAttr
    ⟨2, asn1Eoc, { close := true }⟩,
    ⟨0, asn1Eoc, { close := true }⟩,
    ⟨0, asn1Eoc, { exit := true }⟩]

def Pkcs12Decode.authenticatedSafeObjects : List Asn1Object :=
  [⟨0, asn1Sequence, { loop := true }⟩, -- AuthenticatedSafe
    ⟨1, asn1Sequence, { obj := true }⟩, -- ContentInfo
    ⟨0, asn1Eoc, { close := true }⟩,
    ⟨0, asn1Eoc, { exit := true }⟩]

def Pkcs12Decode.digestInfoObjects : List Asn1Object :=
  [⟨0, asn1Sequence, { obj := true }⟩, -- digestInfo
    ⟨1, asn1Eoc, { raw := true }⟩, -- digestAlgorithm
    ⟨1, asn1OctetString, { body := true }⟩, -- digest
    ⟨0, asn1Eoc, { exit := true }⟩]

def Pkcs12Decode.pfxObjects : List Asn1Object :=
  [⟨0, asn1Sequence, {}⟩, -- PFX
    ⟨1, asn1Integer, { body := true }⟩, -- version
    ⟨1, asn1Sequence, { obj := true }⟩, -- authSafe
    ⟨1, asn1Sequence, { option := true, body := true }⟩, -- macData
    ⟨2, asn1Sequence, { raw := true }⟩, -- mac
    ⟨2, asn1OctetString, { body := true }⟩, -- macSalt
    ⟨2, asn1Integer, { default := true, body := true }⟩, -- iterations
    ⟨1, asn1Eoc, { close := true }⟩,
    ⟨0, asn1Eoc, { exit := true }⟩]

/-! ## `pkcs7_attributes.c` -/

def Pkcs7Attributes.attributesObjects : List Asn1Object :=
  [⟨0, asn1Set, { loop := true }⟩, -- attributes
    ⟨1, asn1Sequence, {}⟩, -- attribute
    ⟨2, asn1Oid, { body := true }⟩, -- type
    ⟨2, asn1Set, { loop := true }⟩, -- values
    ⟨3, asn1Eoc, { raw := true }⟩, -- value
    ⟨2, asn1Eoc, { close := true }⟩,
    ⟨0, asn1Eoc, { close := true }⟩,
    ⟨0, asn1Eoc, { exit := true }⟩]

/-! ## `pkcs7_encrypted_data.c` -/

def Pkcs7EncryptedData.encryptedDataObjects : List Asn1Object :=
  [⟨0, asn1Sequence, {}⟩, -- encryptedData
    ⟨1, asn1Integer, { body := true }⟩, -- version
    ⟨1, asn1Sequence, { obj := true }⟩, -- encryptedContentInfo
    ⟨2, asn1Oid, { body := true }⟩, -- contentType
    ⟨2, asn1Eoc, { raw := true }⟩, -- contentEncryptionAlgorithm
    ⟨2, asn1ContextS 0, { body := true }⟩, -- encryptedContent
    ⟨0, asn1Eoc, { exit := true }⟩]

/-! ## `pkcs7_enveloped_data.c` -/

def Pkcs7EnvelopedData.envelopedDataObjects : List Asn1Object :=
  [⟨0, asn1Sequence, {}⟩, -- envelopedData
    ⟨1, asn1Integer, { body := true }⟩, -- version
    ⟨1, asn1Set, { loop := true }⟩, -- recipientInfos
    ⟨2, asn1Sequence, { body := true }⟩, -- recipientInfo
    ⟨3, asn1Integer, { body := true }⟩, -- version
    ⟨3, asn1Sequence, { body := true }⟩, -- issuerAndSerialNumber
    ⟨4, asn1Sequence, { obj := true }⟩, -- issuer
    ⟨4, asn1Integer, { body := true }⟩, -- serial
    ⟨3, asn1Eoc, { raw := true }⟩, -- encryptionAlgorithm
    ⟨3, asn1OctetString, { body := true }⟩, -- encryptedKey
    ⟨1, asn1Eoc, { close := true }⟩,
    ⟨1, asn1Sequence, { obj := true }⟩, -- encryptedContentInfo
    ⟨2, asn1Oid, { body := true }⟩, -- contentType
    ⟨2, asn1Eoc, { raw := true }⟩, -- contentEncryptionAlgorithm
    ⟨2, asn1ContextS 0, { body := true }⟩, -- encryptedContent
    ⟨0, asn1Eoc, { exit := true }⟩]

/-! ## `pkcs7_generic.c` -/

def Pkcs7Generic.contentInfoObjects : List Asn1Object :=
  [⟨0, asn1Sequence, {}⟩, -- contentInfo
    ⟨1, asn1Oid, { body := true }⟩, -- contentType
    ⟨1, asn1ContextC 0, { option := true, body := true }⟩, -- content
    ⟨1, asn1Eoc, { close := true }⟩,
    ⟨0, asn1Eoc, { exit := true }⟩]

/-! ## `pkcs7_signed_data.c` -/

def Pkcs7SignedData.signedDataObjects : List Asn1Object :=
  [⟨0, asn1Sequence, {}⟩, -- signedData
    ⟨1, asn1Integer, { body := true }⟩, -- version
    ⟨1, asn1Set, { loop := true }⟩, -- digestAlgorithms
    ⟨2, asn1Eoc, { raw := true }⟩, -- algorithm
    ⟨1, asn1Eoc, { close := true }⟩,
    ⟨1, asn1Eoc, { raw := true }⟩, -- contentInfo
    ⟨1, asn1ContextC 0, { option := true, loop := true }⟩, -- certificates
    ⟨2, asn1Sequence, { obj := true }⟩, -- certificate
    ⟨1, asn1Eoc, { close := true }⟩,
    ⟨1, asn1ContextC 1, { option := true, loop := true }⟩, -- crls
    ⟨2, asn1Sequence, { obj := true }⟩, -- crl
    ⟨1, asn1Eoc, { close := true }⟩,
    ⟨1, asn1Set, { loop := true }⟩, -- signerInfos
    ⟨2, asn1Sequence, {}⟩, -- signerInfo
    ⟨3, asn1Integer, { body := true }⟩, -- version
    ⟨3, asn1Sequence, { body := true }⟩, -- issuerAndSerialNumber
    ⟨4, asn1Sequence, { obj := true }⟩, -- issuer
    ⟨4, asn1Integer, { body := true }⟩, -- serial
    ⟨3, asn1Eoc, { raw := true }⟩, -- digestAlgorithm
    ⟨3, asn1ContextC 0, { option := true, obj := true }⟩, -- authenticatedAttributes
    ⟨3, asn1Eoc, { close := true }⟩,
    ⟨3, asn1Eoc, { raw := true }⟩, -- digestEncryptionAlgorithm
    ⟨3, asn1OctetString, { body := true }⟩, -- encryptedDigest
    ⟨3, asn1ContextC 1, { option := true }⟩, -- unauthenticatedAttributes
    ⟨3, asn1Eoc, { close := true }⟩,
    ⟨1, asn1Eoc, { close := true }⟩,
    ⟨0, asn1Eoc, { exit := true }⟩]

/-! ## `pkcs8_builder.c` -/

def Pkcs8Builder.pkinfoObjects : List Asn1Object :=
  [⟨0, asn1Sequence, {}⟩, -- privateKeyInfo
    ⟨1, asn1Integer, { body := true }⟩, -- version
    ⟨1, asn1Eoc, { raw := true }⟩, -- privateKeyAlgorithm
    ⟨1, asn1OctetString, { body := true }⟩, -- privateKey
    ⟨1, asn1ContextC 0, { option := true }⟩, -- attributes
    ⟨1, asn1Eoc, { close := true }⟩,
    ⟨0, asn1Eoc, { exit := true }⟩]

def Pkcs8Builder.encryptedPKIObjects : List Asn1Object :=
  [⟨0, asn1Sequence, {}⟩, -- encryptedPrivateKeyInfo
    ⟨1, asn1Eoc, { raw := true }⟩, -- encryptionAlgorithm
    ⟨1, asn1OctetString, { body := true }⟩, -- encryptedData
    ⟨0, asn1Eoc, { exit := true }⟩]

/-! ## `x509_ac.c` -/

def X509Ac.roleSyntaxObjects : List Asn1Object :=
  [⟨0, asn1Sequence, {}⟩, -- roleSyntax
    ⟨1, asn1ContextC 0, { option := true, obj := true }⟩, -- roleAuthority
    ⟨1, asn1Eoc, { close := true }⟩,
    ⟨1, asn1ContextC 1, { obj := true }⟩, -- roleName
    ⟨0, asn1Eoc, { exit := true }⟩]

def X509Ac.ietfAttrSyntaxObjects : List Asn1Object :=
  [⟨0, asn1Sequence, {}⟩, -- ietfAttrSyntax
    ⟨1, asn1ContextC 0, { option := true, body := true }⟩, -- policyAuthority
    ⟨1, asn1Eoc, { close := true }⟩,
    ⟨1, asn1Sequence, { loop := true }⟩, -- values
    ⟨2, asn1OctetString, { option := true, body := true }⟩, -- octets
    ⟨2, asn1Eoc, { close := true }⟩,
    ⟨2, asn1Oid, { option := true, body := true }⟩, -- oid
    ⟨2, asn1Eoc, { close := true }⟩,
    ⟨2, asn1Utf8String, { option := true, body := true }⟩, -- string
    ⟨2, asn1Eoc, { close := true }⟩,
    ⟨1, asn1Eoc, { close := true }⟩,
    ⟨0, asn1Eoc, { exit := true }⟩]

def X509Ac.acObjects : List Asn1Object :=
  [⟨0, asn1Sequence, { obj := true }⟩, -- AttributeCertificate
    ⟨1, asn1Sequence, { obj := true }⟩, -- AttributeCertificateInfo
    ⟨2, asn1Integer, { default := true, body := true }⟩, -- version
    ⟨2, asn1Sequence, {}⟩, -- holder
    ⟨3, asn1ContextC 0, { option := true }⟩, -- baseCertificateID
    ⟨4, asn1Sequence, { obj := true }⟩, -- issuer
    ⟨4, asn1Integer, { body := true }⟩, -- serial
    ⟨4, asn1BitString, { option := true, body := true }⟩, -- issuerUID
    ⟨4, asn1Eoc, { close := true }⟩,
    ⟨3, asn1Eoc, { close := true }⟩,
    ⟨3, asn1ContextC 1, { option := true, obj := true }⟩, -- entityName
    ⟨3, asn1Eoc, { close := true }⟩,
    ⟨3, asn1ContextC 2, { option := true }⟩, -- objectDigestInfo
    ⟨4, asn1Enumerated, { body := true }⟩, -- digestedObjectType
    ⟨4, asn1Oid, { option := true, body := true }⟩, -- otherObjectTypeID
    ⟨4, asn1Eoc, { close := true }⟩,
    ⟨4, asn1Eoc, { raw := true }⟩, -- digestAlgorithm
    ⟨3, asn1Eoc, { close := true }⟩,
    ⟨2, asn1ContextC 0, {}⟩, -- v2Form
    ⟨3, asn1Sequence, { option := true, obj := true }⟩, -- issuerName
    ⟨3, asn1Eoc, { close := true }⟩,
    ⟨3, asn1ContextC 0, { option := true }⟩, -- baseCertificateID
    ⟨4, asn1Sequence, {}⟩, -- issuerSerial
    ⟨5, asn1Sequence, { obj := true }⟩, -- issuer
    ⟨5, asn1Integer, { body := true }⟩, -- serial
    ⟨5, asn1BitString, { option := true, body := true }⟩, -- issuerUID
    ⟨5, asn1Eoc, { close := true }⟩,
    ⟨3, asn1Eoc, { close := true }⟩,
    ⟨3, asn1ContextC 1, { option := true }⟩, -- objectDigestInfo
    ⟨4, asn1Sequence, { obj := true }⟩, -- digestInfo
    ⟨5, asn1Enumerated, { body := true }⟩, -- digestedObjectType
    ⟨5, asn1Oid, { option := true, body := true }⟩, -- otherObjectTypeID
    ⟨5, asn1Eoc, { close := true }⟩,
    ⟨5, asn1Eoc, { raw := true }⟩, -- digestAlgorithm
    ⟨3, asn1Eoc, { close := true }⟩,
    ⟨2, asn1Eoc, { raw := true }⟩, -- signature
    ⟨2, asn1Integer, { body := true }⟩, -- serialNumber
    ⟨2, asn1Sequence, {}⟩, -- attrCertValidityPeriod
    ⟨3, asn1GeneralizedTime, { body := true }⟩, -- notBeforeTime
    ⟨3, asn1GeneralizedTime, { body := true }⟩, -- notAfterTime
    ⟨2, asn1Sequence, { loop := true }⟩, -- attributes
    ⟨3, asn1Sequence, {}⟩, -- attribute
    ⟨4, asn1Oid, { body := true }⟩, -- type
    ⟨4, asn1Set, { loop := true }⟩, -- values
    ⟨5, asn1Eoc, { raw := true }⟩, -- value
    ⟨4, asn1Eoc, { close := true }⟩,
    ⟨2, asn1Eoc, { close := true }⟩,
    ⟨2, asn1Sequence, { loop := true }⟩, -- extensions
    ⟨3, asn1Sequence, {}⟩, -- extension
    ⟨4, asn1Oid, { body := true }⟩, -- extnID
    ⟨4, asn1Boolean, { default := true, body := true }⟩, -- critical
    ⟨4, asn1OctetString, { body := true }⟩, -- extnValue
    ⟨2, asn1Eoc, { close := true }⟩,
    ⟨1, asn1Eoc, { raw := true }⟩, -- signatureAlgorithm
    ⟨1, asn1BitString, { body := true }⟩, -- signatureValue
    ⟨0, asn1Eoc, { exit := true }⟩]

/-! ## `x509_cert.c` -/

def X509Cert.basicConstraintsObjects : List Asn1Object :=
  [⟨0, asn1Sequence, {}⟩, -- basicConstraints
    ⟨1, asn1Boolean, { default := true, body := true }⟩, -- CA
    ⟨1, asn1Integer, { option := true, body := true }⟩, -- pathLenConstraint
    ⟨1, asn1Eoc, { close := true }⟩,
    ⟨0, asn1Eoc, { exit := true }⟩]

def X509Cert.otherNameObjects : List Asn1Object :=
  [⟨0, asn1Oid, { body := true }⟩, -- type-id
    ⟨0, asn1ContextC 0, { body := true }⟩, -- value
    ⟨0, asn1Eoc, { exit := true }⟩]

def X509Cert.generalNameObjects : List Asn1Object :=
  [⟨0, asn1ContextC 0, { option := true, body := true }⟩, -- otherName
    ⟨0, asn1Eoc, { close := true }⟩,
    ⟨0, asn1ContextS 1, { option := true, body := true }⟩, -- rfc822Name
    ⟨0, asn1Eoc, { close := true }⟩,
    ⟨0, asn1ContextS 2, { option := true, body := true }⟩, -- dnsName
    ⟨0, asn1Eoc, { close := true }⟩,
    ⟨0, asn1ContextS 3, { option := true, body := true }⟩, -- x400Address
    ⟨0, asn1Eoc, { close := true }⟩,
    ⟨0, asn1ContextC 4, { option := true, body := true }⟩, -- directoryName
    ⟨0, asn1Eoc, { close := true }⟩,
    ⟨0, asn1ContextC 5, { option := true, body := true }⟩, -- ediPartyName
    ⟨0, asn1Eoc, { close := true }⟩,
    ⟨0, asn1ContextS 6, { option := true, body := true }⟩, -- URI
    ⟨0, asn1Eoc, { close := true }⟩,
    ⟨0, asn1ContextS 7, { option := true, body := true }⟩, -- ipAddress
    ⟨0, asn1Eoc, { close := true }⟩,
    ⟨0, asn1ContextS 8, { option := true, body := true }⟩, -- registeredID
    ⟨0, asn1Eoc, { close := true }⟩,
    ⟨0, asn1Eoc, { exit := true }⟩]

def X509Cert.generalNamesObjects : List Asn1Object :=
  [⟨0, asn1Sequence, { loop := true }⟩, -- generalNames
    ⟨1, asn1Eoc, { raw := true }⟩, -- generalName
    ⟨0, asn1Eoc, { close := true }⟩,
    ⟨0, asn1Eoc, { exit := true }⟩]

def X509Cert.authKeyIdentifierObjects : List Asn1Object :=
  [⟨0, asn1Sequence, {}⟩, -- authorityKeyIdentifier
    ⟨1, asn1ContextS 0, { option := true, body := true }⟩, -- keyIdentifier
    ⟨1, asn1Eoc, { close := true }⟩,
    ⟨1, asn1ContextC 1, { option := true, obj := true }⟩, -- authorityCertIssuer
    ⟨1, asn1Eoc, { close := true }⟩,
    ⟨1, asn1ContextS 2, { option := true, body := true }⟩, -- authorityCertSerialNumber
    ⟨1, asn1Eoc, { close := true }⟩,
    ⟨0, asn1Eoc, { exit := true }⟩]

def X509Cert.authInfoAccessObjects : List Asn1Object :=
  [⟨0, asn1Sequence, { loop := true }⟩, -- authorityInfoAccess
    ⟨1, asn1Sequence, {}⟩, -- accessDescription
    ⟨2, asn1Oid, { body := true }⟩, -- accessMethod
    ⟨2, asn1Eoc, { raw := true }⟩, -- accessLocation
    ⟨0, asn1Eoc, { close := true }⟩,
    ⟨0, asn1Eoc, { exit := true }⟩]

def X509Cert.extendedKeyUsageObjects : List Asn1Object :=
  [⟨0, asn1Sequence, { loop := true }⟩, -- extendedKeyUsage
    ⟨1, asn1Oid, { body := true }⟩, -- keyPurposeID
    ⟨0, asn1Eoc, { close := true }⟩,
    ⟨0, asn1Eoc, { exit := true }⟩]

def X509Cert.crlDistributionPointsObjects : List Asn1Object :=
  [⟨0, asn1Sequence, { loop := true }⟩, -- crlDistributionPoints
    ⟨1, asn1Sequence, {}⟩, -- DistributionPoint
    ⟨2, asn1ContextC 0, { option := true, choice := true }⟩, -- distributionPoint
    ⟨3, asn1ContextC 0, { option := true, obj := true }⟩, -- fullName
    ⟨3, asn1Eoc, { close := true, ch := true }⟩,
    ⟨3, asn1ContextC 1, { option := true, body := true }⟩, -- nameRelToCRLIssuer
    ⟨3, asn1Eoc, { close := true, ch := true }⟩,
    ⟨2, asn1Eoc, { close := true, choice := true }⟩,
    ⟨2, asn1ContextC 1, { option := true, body := true }⟩, -- reasons
    ⟨2, asn1Eoc, { close := true }⟩,
    ⟨2, asn1ContextC 2, { option := true, obj := true }⟩, -- crlIssuer
    ⟨2, asn1Eoc, { close := true }⟩,
    ⟨0, asn1Eoc, { close := true }⟩,
    ⟨0, asn1Eoc, { exit := true }⟩]

def X509Cert.nameConstraintsObjects : List Asn1Object :=
  [⟨0, asn1Sequence, {}⟩, -- nameConstraints
    ⟨1, asn1ContextC 0, { option := true, loop := true }⟩, -- permittedSubtrees
    ⟨2, asn1Sequence, { body := true }⟩, -- generalSubtree
    ⟨1, asn1Eoc, { close := true }⟩,
    ⟨1, asn1ContextC 1, { option := true, loop := true }⟩, -- excludedSubtrees
    ⟨2, asn1Sequence, { body := true }⟩, -- generalSubtree
    ⟨1, asn1Eoc, { close := true }⟩,
    ⟨0, asn1Eoc, { exit := true }⟩]

def X509Cert.certificatePoliciesObject : List Asn1Object :=
  [⟨0, asn1Sequence, { loop := true }⟩, -- certificatePolicies
    ⟨1, asn1Sequence, {}⟩, -- policyInformation
    ⟨2, asn1Oid, { body := true }⟩, -- policyId
    ⟨2, asn1Sequence, { option := true, loop := true }⟩, -- qualifiers
    ⟨3, asn1Sequence, {}⟩, -- qualifierInfo
    ⟨4, asn1Oid, { body := true }⟩, -- qualifierId
    ⟨4, asn1Eoc, { choice := true }⟩, -- qualifier
    ⟨5, asn1Ia5String, { option := true, body := true }⟩, -- cPSuri
    ⟨5, asn1Eoc, { close := true, ch := true }⟩,
    ⟨5, asn1Sequence, { option := true, body := true }⟩, -- userNotice
    ⟨6, asn1Eoc, { raw := true }⟩, -- explicitText
    ⟨5, asn1Eoc, { close := true, ch := true }⟩,
    ⟨4, asn1Eoc, { close := true, choice := true }⟩,
    ⟨2, asn1Eoc, { close := true }⟩,
    ⟨0, asn1Eoc, { close := true }⟩,
    ⟨0, asn1Eoc, { exit := true }⟩]

def X509Cert.policyMappingsObjects : List Asn1Object :=
  [⟨0, asn1Sequence, { loop := true }⟩, -- policyMappings
    ⟨1, asn1Sequence, {}⟩, -- policyMapping
    ⟨2, asn1Oid, { body := true }⟩, -- issuerPolicy
    ⟨2, asn1Oid, { body := true }⟩, -- subjectPolicy
    ⟨0, asn1Eoc, { close := true }⟩,
    ⟨0, asn1Eoc, { exit := true }⟩]

def X509Cert.policyConstraintsObjects : List Asn1Object :=
  [⟨0, asn1Sequence, {}⟩, -- policyConstraints
    ⟨1, asn1ContextC 0, { option := true }⟩, -- requireExplicitPolicy
    ⟨2, asn1Integer, { body := true }⟩, -- SkipCerts
    ⟨1, asn1Eoc, { close := true }⟩,
    ⟨1, asn1ContextC 1, { option := true }⟩, -- inhibitPolicyMapping
    ⟨2, asn1Integer, { body := true }⟩, -- SkipCerts
    ⟨1, asn1Eoc, { close := true }⟩,
    ⟨0, asn1Eoc, { exit := true }⟩]

def X509Cert.ipAddrBlocksObjects : List Asn1Object :=
  [⟨0, asn1Sequence, { loop := true }⟩, -- ipAddrBlocks
    ⟨1, asn1Sequence, {}⟩, -- ipAddressFamily
    ⟨2, asn1OctetString, { body := true }⟩, -- addressFamily
    ⟨2, asn1Eoc, { choice := true }⟩, -- ipAddressChoice
    ⟨3, asn1Null, { option := true }⟩, -- inherit
    ⟨3, asn1Eoc, { close := true, ch := true }⟩,
    ⟨3, asn1Sequence, { option := true, loop := true }⟩, -- addressesOrRanges
    ⟨4, asn1Eoc, { choice := true }⟩, -- addressOrRange
    ⟨5, asn1BitString, { option := true, body := true }⟩, -- addressPrefix
    ⟨5, asn1Eoc, { close := true, ch := true }⟩,
    ⟨5, asn1Sequence, { option := true }⟩, -- addressRange
    ⟨6, asn1BitString, { body := true }⟩, -- min
    ⟨6, asn1BitString, { body := true }⟩, -- max
    ⟨5, asn1Eoc, { close := true, ch := true }⟩,
    ⟨4, asn1Eoc, { close := true, choice := true }⟩,
    ⟨3, asn1Eoc, { close := true, ch := true }⟩,
    ⟨2, asn1Eoc, { close := true, choice := true }⟩,
    ⟨0, asn1Eoc, { close := true }⟩,
    ⟨0, asn1Eoc, { exit := true }⟩]

def X509Cert.certObjects : List Asn1Object :=
  [⟨0, asn1Sequence, { obj := true }⟩, -- x509
    ⟨1, asn1Sequence, { obj := true }⟩, -- tbsCertificate
    ⟨2, asn1ContextC 0, { default := true }⟩, -- DEFAULT v1
    ⟨3, asn1Integer, { body := true }⟩, -- version
    ⟨2, asn1Integer, { body := true }⟩, -- serialNumber
    ⟨2, asn1Eoc, { raw := true }⟩, -- signature
    ⟨2, asn1Sequence, { obj := true }⟩, -- issuer
    ⟨2, asn1Sequence, {}⟩, -- validity
    ⟨3, asn1Eoc, { raw := true }⟩, -- notBefore
    ⟨3, asn1Eoc, { raw := true }⟩, -- notAfter
    ⟨2, asn1Sequence, { obj := true }⟩, -- subject
    ⟨2, asn1Sequence, { raw := true }⟩, -- subjectPublicKeyInfo
    ⟨2, asn1ContextC 1, { option := true }⟩, -- issuerUniqueID
    ⟨2, asn1Eoc, { close := true }⟩,
    ⟨2, asn1ContextC 2, { option := true }⟩, -- subjectUniqueID
    ⟨2, asn1Eoc, { close := true }⟩,
    ⟨2, asn1ContextC 3, { option := true }⟩, -- optional extensions
    ⟨3, asn1Sequence, { loop := true }⟩, -- extensions
    ⟨4, asn1Sequence, {}⟩, -- extension
    ⟨5, asn1Oid, { body := true }⟩, -- extnID
    ⟨5, asn1Boolean, { default := true, body := true }⟩, -- critical
    ⟨5, asn1OctetString, { body := true }⟩, -- extnValue
    ⟨3, asn1Eoc, { close := true }⟩,
    ⟨2, asn1Eoc, { close := true }⟩,
    ⟨1, asn1Eoc, { raw := true }⟩, -- signatureAlgorithm
    ⟨1, asn1BitString, { body := true }⟩, -- signatureValue
    ⟨0, asn1Eoc, { exit := true }⟩]

/-! ## `x509_crl.c` -/

def X509Crl.crlObjects : List Asn1Object :=
  [⟨0, asn1Sequence, { obj := true }⟩, -- certificateList
    ⟨1, asn1Sequence, { obj := true }⟩, -- tbsCertList
    ⟨2, asn1Integer, { option := true, body := true }⟩, -- version
    ⟨2, asn1Eoc, { close := true }⟩,
    ⟨2, asn1Eoc, { raw := true }⟩, -- signature
    ⟨2, asn1Sequence, { obj := true }⟩, -- issuer
    ⟨2, asn1Eoc, { raw := true }⟩, -- thisUpdate
    ⟨2, asn1Eoc, { raw := true }⟩, -- nextUpdate
    ⟨2, asn1Sequence, { option := true, loop := true }⟩, -- revokedCertificates
    ⟨3, asn1Sequence, {}⟩, -- certList
    ⟨4, asn1Integer, { body := true }⟩, -- userCertificate
    ⟨4, asn1Eoc, { raw := true }⟩, -- revocationDate
    ⟨4, asn1Sequence, { option := true, loop := true }⟩, -- crlEntryExtensions
    ⟨5, asn1Sequence, {}⟩, -- extension
    ⟨6, asn1Oid, { body := true }⟩, -- extnID
    ⟨6, asn1Boolean, { default := true, body := true }⟩, -- critical
    ⟨6, asn1OctetString, { body := true }⟩, -- extnValue
    ⟨4, asn1Eoc, { close := true }⟩,
    ⟨2, asn1Eoc, { close := true }⟩,
    ⟨2, asn1ContextC 0, { option := true }⟩, -- optional extensions
    ⟨3, asn1Sequence, { loop := true }⟩, -- crlExtensions
    ⟨4, asn1Sequence, {}⟩, -- extension
    ⟨5, asn1Oid, { body := true }⟩, -- extnID
    ⟨5, asn1Boolean, { default := true, body := true }⟩, -- critical
    ⟨5, asn1OctetString, { body := true }⟩, -- extnValue
    ⟨3, asn1Eoc, { close := true }⟩,
    ⟨2, asn1Eoc, { close := true }⟩,
    ⟨1, asn1Eoc, { raw := true }⟩, -- signatureAlgorithm
    ⟨1, asn1BitString, { body := true }⟩, -- signatureValue
    ⟨0, asn1Eoc, { exit := true }⟩]

/-! ## `x509_ocsp_response.c` -/

def X509OcspResponse.singleResponseObjects : List Asn1Object :=
  [⟨0, asn1Sequence, { body := true }⟩, -- singleResponse
    ⟨1, asn1Sequence, {}⟩, -- certID
    ⟨2, asn1Eoc, { raw := true }⟩, -- algorithm
    ⟨2, asn1OctetString, { body := true }⟩, -- issuerNameHash
    ⟨2, asn1OctetString, { body := true }⟩, -- issuerKeyHash
    ⟨2, asn1Integer, { body := true }⟩, -- serialNumber
    ⟨1, asn1ContextS 0, { option := true }⟩, -- certStatusGood
    ⟨1, asn1Eoc, { close := true }⟩,
    ⟨1, asn1ContextC 1, { option := true }⟩, -- certStatusRevoked
    ⟨2, asn1GeneralizedTime, { body := true }⟩, -- revocationTime
    ⟨2, asn1ContextC 0, { option := true }⟩, -- revocationReason
    ⟨3, asn1Enumerated, { body := true }⟩, -- crlReason
    ⟨2, asn1Eoc, { close := true }⟩,
    ⟨1, asn1Eoc, { close := true }⟩,
    ⟨1, asn1ContextS 2, { option := true }⟩, -- certStatusUnknown
    ⟨1, asn1Eoc, { close := true }⟩,
    ⟨1, asn1GeneralizedTime, { body := true }⟩, -- thisUpdate
    ⟨1, asn1ContextC 0, { option := true }⟩, -- nextUpdateContext
    ⟨2, asn1GeneralizedTime, { body := true }⟩, -- nextUpdate
    ⟨1, asn1Eoc, { close := true }⟩,
    ⟨1, asn1ContextC 1, { option := true }⟩, -- singleExtensionsContext
    ⟨2, asn1Sequence, { loop := true }⟩, -- singleExtensions
    ⟨3, asn1Sequence, {}⟩, -- extension
    ⟨4, asn1Oid, { body := true }⟩, -- extnID
    ⟨4, asn1Boolean, { body := true, default := true }⟩, -- critical
    ⟨4, asn1OctetString, { body := true }⟩, -- extnValue
    ⟨2, asn1Eoc, { close := true }⟩,
    ⟨1, asn1Eoc, { close := true }⟩,
    ⟨0, asn1Eoc, { exit := true }⟩]

def X509OcspResponse.responsesObjects : List Asn1Object :=
  [⟨0, asn1Sequence, { loop := true }⟩, -- responses
    ⟨1, asn1Eoc, { raw := true }⟩, -- singleResponse
    ⟨0, asn1Eoc, { close := true }⟩,
    ⟨0, asn1Eoc, { exit := true }⟩]

def X509OcspResponse.basicResponseObjects : List Asn1Object :=
  [⟨0, asn1Sequence, {}⟩, -- BasicOCSPResponse
    ⟨1, asn1Sequence, { obj := true }⟩, -- tbsResponseData
    ⟨2, asn1ContextC 0, { default := true }⟩, -- versionContext
    ⟨3, asn1Integer, { body := true }⟩, -- version
    ⟨2, asn1ContextC 1, { option := true }⟩, -- responderIdContext
    ⟨3, asn1Sequence, { obj := true }⟩, -- responderIdByName
    ⟨2, asn1Eoc, { close := true }⟩,
    ⟨2, asn1ContextC 2, { option := true }⟩, -- responderIdContext
    ⟨3, asn1OctetString, { body := true }⟩, -- responderIdByKey
    ⟨2, asn1Eoc, { close := true }⟩,
    ⟨2, asn1GeneralizedTime, { body := true }⟩, -- producedAt
    ⟨2, asn1Sequence, { obj := true }⟩, -- responses
    ⟨2, asn1ContextC 1, { option := true }⟩, -- responseExtensionsContext
    ⟨3, asn1Sequence, { loop := true }⟩, -- responseExtensions
    ⟨4, asn1Sequence, {}⟩, -- extension
    ⟨5, asn1Oid, { body := true }⟩, -- extnID
    ⟨5, asn1Boolean, { body := true, default := true }⟩, -- critical
    ⟨5, asn1OctetString, { body := true }⟩, -- extnValue
    ⟨3, asn1Eoc, { close := true }⟩,
    ⟨2, asn1Eoc, { close := true }⟩,
    ⟨1, asn1Eoc, { raw := true }⟩, -- signatureAlgorithm
    ⟨1, asn1BitString, { body := true }⟩, -- signature
    ⟨1, asn1ContextC 0, { option := true }⟩, -- certsContext
    ⟨2, asn1Sequence, { loop := true }⟩, -- certs
    ⟨3, asn1Sequence, { raw := true }⟩, -- certificate
    ⟨2, asn1Eoc, { close := true }⟩,
    ⟨1, asn1Eoc, { close := true }⟩,
    ⟨0, asn1Eoc, { exit := true }⟩]

def X509OcspResponse.ocspResponseObjects : List Asn1Object :=
  [⟨0, asn1Sequence, {}⟩, -- OCSPResponse
    ⟨1, asn1Enumerated, { body := true }⟩, -- responseStatus
    ⟨1, asn1ContextC 0, { option := true }⟩, -- responseBytesContext
    ⟨2, asn1Sequence, {}⟩, -- responseBytes
    ⟨3, asn1Oid, { body := true }⟩, -- responseType
    ⟨3, asn1OctetString, { body := true }⟩, -- response
    ⟨1, asn1Eoc, { close := true }⟩,
    ⟨0, asn1Eoc, { exit := true }⟩]

/-! ## `x509_pkcs10.c` -/

def X509Pkcs10.extensionRequestObjects : List Asn1Object :=
  [⟨0, asn1Sequence, { loop := true }⟩, -- extensions
    ⟨1, asn1Sequence, {}⟩, -- extension
    ⟨2, asn1Oid, { body := true }⟩, -- extnID
    ⟨2, asn1Boolean, { default := true, body := true }⟩, -- critical
    ⟨2, asn1OctetString, { body := true }⟩, -- extnValue
    ⟨1, asn1Eoc, { close := true }⟩,
    ⟨0, asn1Eoc, { exit := true }⟩]

def X509Pkcs10.certificationRequestObjects : List Asn1Object :=
  [⟨0, asn1Sequence, { obj := true }⟩, -- certificationRequest
    ⟨1, asn1Sequence, { obj := true }⟩, -- certificationRequestInfo
    ⟨2, asn1Integer, { body := true }⟩, -- version
    ⟨2, asn1Sequence, { obj := true }⟩, -- subject
    ⟨2, asn1Sequence, { raw := true }⟩, -- subjectPublicKeyInfo
    ⟨2, asn1ContextC 0, { loop := true }⟩, -- attributes
    ⟨3, asn1Sequence, {}⟩, -- attribute
    ⟨4, asn1Oid, { body := true }⟩, -- type
    ⟨4, asn1Set, { loop := true }⟩, -- values
    ⟨5, asn1Eoc, { raw := true }⟩, -- value
    ⟨4, asn1Eoc, { close := true }⟩,
    ⟨2, asn1Eoc, { close := true }⟩,
    ⟨1, asn1Eoc, { raw := true }⟩, -- signatureAlgorithm
    ⟨1, asn1BitString, { body := true }⟩, -- signature
    ⟨0, asn1Eoc, { exit := true }⟩]

/-! ## `test_asn1_parser.c` -/

def TestAsn1Parser.octetStringObjects : List Asn1Object :=
  [⟨0, asn1OctetString, { body := true }⟩, -- octetString
    ⟨0, asn1Eoc, { exit := true }⟩]

def TestAsn1Parser.loopObjects : List Asn1Object :=
  [⟨0, asn1Sequence, { loop := true }⟩, -- loopObjects
    ⟨1, asn1OctetString, { body := true }⟩, -- octetString
    ⟨0, asn1Eoc, { close := true }⟩,
    ⟨0, asn1Eoc, { exit := true }⟩]

def TestAsn1Parser.defaultObjects : List Asn1Object :=
  [⟨0, asn1Sequence, { obj := true }⟩, -- defaultObjects
    ⟨1, asn1ContextC 1, { default := true }⟩, -- explicit int1
    ⟨2, asn1Integer, { body := true }⟩, -- int1
    ⟨1, asn1Integer, { default := true, body := true }⟩, -- int2
    ⟨1, asn1ContextS 3, { default := true, body := true }⟩, -- implicit int3
    ⟨0, asn1Eoc, { exit := true }⟩]

def TestAsn1Parser.optionObjects : List Asn1Object :=
  [⟨0, asn1Sequence, { obj := true }⟩, -- optionalObjects
    ⟨1, asn1Sequence, { option := true }⟩, -- sequence int1
    ⟨2, asn1Integer, { option := true, body := true }⟩, -- int1
    ⟨2, asn1Eoc, { close := true }⟩,
    ⟨1, asn1Eoc, { close := true }⟩,
    ⟨1, asn1Integer, { option := true, body := true }⟩, -- int2
    ⟨1, asn1Eoc, { close := true }⟩,
    ⟨1, asn1ContextS 3, { option := true, body := true }⟩, -- implicit int3
    ⟨1, asn1Eoc, { close := true }⟩,
    ⟨0, asn1Eoc, { exit := true }⟩]

def TestAsn1Parser.choiceObjects : List Asn1Object :=
  [⟨0, asn1Eoc, { choice := true }⟩, -- choiceObject
    ⟨1, asn1ContextC 0, { option := true, choice := true }⟩, -- choiceA
    ⟨2, asn1OctetString, { option := true, body := true }⟩, -- choice1
    ⟨2, asn1Eoc, { close := true, ch := true }⟩,
    ⟨2, asn1Integer, { option := true, body := true }⟩, -- choice2
    ⟨2, asn1Eoc, { close := true, ch := true }⟩,
    ⟨1, asn1Eoc, { close := true, choice := true, ch := true }⟩,
    ⟨1, asn1Sequence, { option := true, loop := true }⟩, -- choiceB
    ⟨2, asn1Eoc, { choice := true }⟩, -- choiceObject
    ⟨3, asn1Integer, { option := true, body := true }⟩, -- choice3
    ⟨3, asn1Eoc, { close := true, ch := true }⟩,
    ⟨3, asn1OctetString, { option := true, body := true }⟩, -- choice4
    ⟨3, asn1Eoc, { close := true, ch := true }⟩,
    ⟨2, asn1Eoc, { close := true, choice := true }⟩,
    ⟨1, asn1Eoc, { close := true, ch := true }⟩,
    ⟨0, asn1Eoc, { close := true, choice := true }⟩,
    ⟨0, asn1Eoc, { exit := true }⟩]

/-! ## `pkcs5.c` of 5.5.2 -/

def Pkcs5.pbkdf2ParamsObjects552 : List Asn1Object :=
  [⟨0, asn1Sequence, {}⟩, -- PBKDF2-params
    ⟨1, asn1OctetString, { body := true }⟩, -- salt
    ⟨1, asn1Integer, { body := true }⟩, -- iterationCount
    ⟨1, asn1Integer, { option := true, body := true }⟩, -- keyLength
    ⟨1, asn1Eoc, { close := true }⟩,
    ⟨1, asn1Eoc, { default := true, raw := true }⟩, -- prf
    ⟨0, asn1Eoc, { exit := true }⟩]

/-! ## All of them -/

def all : List (List Asn1Object) :=
  [algorithmIdentifierObjects, Asn1.timeObjects, SignatureParams.rsassaPssParamsObjects,
    Pkcs5.pbeParameterObjects, Pkcs5.pbkdf2ParamsObjects, Pkcs5.pbes2ParamsObjects,
    BlissPrivateKey.privkeyObjects, BlissPublicKey.pubkeyObjects,
    Curve25519PublicKey.pubkeyObjects, digestInfoObjects, Pkcs1Builder.pkinfoObjects,
    Pkcs1Builder.pubkeyObjects, Pkcs1Builder.privkeyObjects, Pkcs11PublicKey.pkinfoObjects,
    Pkcs12Decode.certBagObjects, Pkcs12Decode.safeContentsObjects,
    Pkcs12Decode.authenticatedSafeObjects, Pkcs12Decode.digestInfoObjects,
    Pkcs12Decode.pfxObjects, Pkcs7Attributes.attributesObjects,
    Pkcs7EncryptedData.encryptedDataObjects, Pkcs7EnvelopedData.envelopedDataObjects,
    Pkcs7Generic.contentInfoObjects, Pkcs7SignedData.signedDataObjects,
    Pkcs8Builder.pkinfoObjects, Pkcs8Builder.encryptedPKIObjects, X509Ac.roleSyntaxObjects,
    X509Ac.ietfAttrSyntaxObjects, X509Ac.acObjects, X509Cert.basicConstraintsObjects,
    X509Cert.otherNameObjects, X509Cert.generalNameObjects, X509Cert.generalNamesObjects,
    X509Cert.authKeyIdentifierObjects, X509Cert.authInfoAccessObjects,
    X509Cert.extendedKeyUsageObjects, X509Cert.crlDistributionPointsObjects,
    X509Cert.nameConstraintsObjects, X509Cert.certificatePoliciesObject,
    X509Cert.policyMappingsObjects, X509Cert.policyConstraintsObjects,
    X509Cert.ipAddrBlocksObjects, X509Cert.certObjects, X509Crl.crlObjects,
    X509OcspResponse.singleResponseObjects, X509OcspResponse.responsesObjects,
    X509OcspResponse.basicResponseObjects, X509OcspResponse.ocspResponseObjects,
    X509Pkcs10.extensionRequestObjects, X509Pkcs10.certificationRequestObjects,
    TestAsn1Parser.octetStringObjects, TestAsn1Parser.loopObjects, TestAsn1Parser.defaultObjects,
    TestAsn1Parser.optionObjects, TestAsn1Parser.choiceObjects, Pkcs5.pbkdf2ParamsObjects552]

end Asn1Tables

end StrongSwan
